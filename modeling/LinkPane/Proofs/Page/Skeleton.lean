import LinkPane.Proofs.Table.Reading
import LinkPane.Proofs.Page.Inspector

/-!
# The markup of tables and pages

No text that is shown has a part in the markup, and neither has any style:

* `Drawn.bones_view_iff` -- what is drawn has the skeleton of its title, its header and its rows, in any pane;
* **`skeleton_tableHtml_iff`** -- the skeleton of a table says how many links it has, and nothing else;
* `Inspector.Reachable` -- the pages that are shown; `Inspector.Reachable.settled`;
* **`Inspector.Settled.skeleton_eq`** -- the skeleton of a page depends on the number of rows and on whether the
  payload is refused;
* **`texts_change_no_markup`** -- both, and that tables and pages are sealed.
-/

namespace LinkPane

open Markup

/-! ## 1. Tables -/

section

variable {tag : String} {pane pane' : PaneStyle} {drawn other : Drawn}

/-- Any two cells have one skeleton, -/
theorem bones_cell (tag : String) (cell other : Cell) : bones (cell.view tag) = bones (other.view tag) := by
  simp [Cell.view, Piece.bones, Attribute.bones]

/-- and so have any two rows of cells. -/
theorem bones_cells (tag : String) (cells other : Cells) : bones (cells.view tag) = bones (other.view tag) := by
  simp only [Cells.view, Cells.toList, bones_element, bones_listed, List.map_cons, List.map_nil,
    List.flatMap_cons, bones_cell tag cells.kind other.kind, bones_cell tag cells.source other.source,
    bones_cell tag cells.separator other.separator, bones_cell tag cells.target other.target]

/-- What is drawn has the skeleton of its rows, whatever its pane and its title. -/
theorem Drawn.bones_view_iff (htitle : bones drawn.title = bones other.title)
    (hheader : bones drawn.header = bones other.header) :
    bones (drawn.view pane) = bones (other.view pane') ↔
      (drawn.rows.map Prod.snd).flatMap bones = (other.rows.map Prod.snd).flatMap bones := by
  have hpane : (Piece.opening "div" [.plain "class" "link-inspection-pane", .style pane.css]).bones =
      (Piece.opening "div" [.plain "class" "link-inspection-pane", .style pane'.css]).bones := by
    simp only [Piece.bones, List.flatMap_cons, Attribute.bones]
  simp only [Drawn.view, bones_element, bones_append, bones_listed, htitle, hheader, hpane,
    List.append_cancel_left_eq, List.append_cancel_right_eq]

end

/-- One block after the other: how many there are is all there is to see. -/
theorem flatMap_eq_iff_length {α β : Type} {f : α → List β} {block : List β} {xs ys : List α} (hblock : block ≠ [])
    (hf : ∀ x, f x = block) : xs.flatMap f = ys.flatMap f ↔ xs.length = ys.length := by
  have hpos : 0 < block.length := List.length_pos_iff.mpr hblock
  have hlength : ∀ zs : List α, (zs.flatMap f).length = zs.length * block.length := fun zs => by
    simp [List.length_flatMap, hf]
  constructor
  · intro h
    have heq := congrArg List.length h
    rw [hlength, hlength] at heq
    exact Nat.eq_of_mul_eq_mul_right hpos heq
  · intro h
    simp only [List.flatMap_def, funext hf, List.map_const', h]

/-- The skeleton of rows says how many there are. -/
theorem bones_rows_iff (rows rows' : List Row) :
    (rows.flatMap fun row => bones (row.cells.view "td")) = (rows'.flatMap fun row => bones (row.cells.view "td")) ↔
      rows.length = rows'.length := by
  have hblock : bones ((linkCells .standard .empty).view "td") ≠ [] := by
    rw [Cells.view, bones_element, Piece.bones]
    exact List.cons_ne_nil _ _
  exact flatMap_eq_iff_length hblock fun row => bones_cells "td" row.cells _

/-- **The skeleton of a table says how many links it has, and nothing else.** -/
theorem bones_tableView_iff (theme theme' : Theme) (a b : Inputs) :
    bones (tableView theme a) = bones (tableView theme' b) ↔ a.links.length = b.links.length := by
  have htitle : bones (Drawn.of (.of theme a)).title = bones (Drawn.of (.of theme' b)).title := rfl
  have hheader : bones (Drawn.of (.of theme a)).header = bones (Drawn.of (.of theme' b)).header := by
    rw [Drawn.header_of, Drawn.header_of]
    exact bones_cells "th" _ _
  have hrows : ∀ layout : Layout, ((Drawn.of layout).rows.map Prod.snd).flatMap bones =
      layout.rows.flatMap fun row => bones (row.cells.view "td") := fun layout => by
    rw [Drawn.rows_of, List.map_map, List.flatMap_map]
    rfl
  rw [tableView, tableView, Drawn.bones_view_iff htitle hheader, hrows, hrows, bones_rows_iff,
    Layout.length_rows_of, Layout.length_rows_of]

theorem skeleton_tableHtml_iff (theme theme' : Theme) (a b : Inputs) :
    skeleton (tableHtml theme a) = skeleton (tableHtml theme' b) ↔ a.links.length = b.links.length := by
  rw [tableHtml, tableHtml, (legible_tableView theme a).skeleton_eq, (legible_tableView theme' b).skeleton_eq,
    bones_tableView_iff]

/-! ## 2. Pages -/

theorem legible_statusView (rows : Nat) (read : Except Rejection (List Link)) :
    Legible (statusView rows read) := by
  have hp : ∀ content, Legible (element "p" [] [.text content]) := fun content =>
    legible_text (by simp [Piece.Tame, IsName]) content
  cases read with
  | ok links => exact hp _
  | error rejection =>
    rw [statusView]
    refine (hp _).append (.element (by simp [Piece.Tame, IsName]) (legible_listed fun item hitem => ?_))
    rw [List.mem_singleton.mp hitem]
    exact legible_text (by simp [Piece.Tame, IsName]) _

/-- What is said about a payload has the skeleton of its kind. -/
theorem bones_statusView {read read' : Except Rejection (List Link)} (h : read.isOk = read'.isOk)
    (rows rows' : Nat) : bones (statusView rows read) = bones (statusView rows' read') := by
  cases read with
  | ok links =>
    cases read' with
    | ok links' => rfl
    | error rejection' => cases h
  | error rejection =>
    cases read' with
    | ok links' => cases h
    | error rejection' => rfl

theorem legible_inspectorView {table status : List Piece} (htable : Legible table) (hstatus : Legible status) :
    Legible (inspectorView table status) := by
  have harea : Legible (element "textarea"
      [.plain "rows" "10", .plain "cols" "80", .plain "class" "link-payload"] []) :=
    legible_nil.element (by simp [Piece.Tame, Attribute.Tame, IsName])
  exact ((htable.append hstatus).append harea).element (by simp [Piece.Tame, Attribute.Tame, IsName])

/-- A page that is shown: a new one as it is opened, or behind some steps. -/
def Inspector.Reachable (page : Inspector) : Prop :=
  ∃ steps, page = Inspector.fresh.draw.1.after steps

/-- The page says why its payload is refused. -/
def Inspector.refuses (page : Inspector) : Bool :=
  !page.status.errors.isEmpty

section

variable {page page' : Inspector} {payload payload' : String} {links links' : List Link}

theorem Inspector.Reachable.settled (h : page.Reachable) : ∃ payload links, page.Settled payload links := by
  obtain ⟨steps, rfl⟩ := h
  have hsettled := settled_after (Nat.le_refl steps.length)
  rw [List.take_length] at hsettled
  exact ⟨_, _, hsettled⟩

theorem Inspector.Settled.length_rows (h : page.Settled payload links) :
    page.table.drawn.rows.length = links.length := by
  rw [h.table_eq]
  exact (List.length_map _).trans (Layout.length_rows_of _ (inspectorInputs links))

theorem Inspector.Settled.refuses_eq (h : page.Settled payload links) :
    page.refuses = !(parseLinks payload).isOk := by
  have hsays := h.status_shows
  unfold Verdict.of at hsays
  cases hparse : parseLinks payload with
  | ok links =>
    rw [hparse] at hsays
    rw [refuses, hsays.1]
    rfl
  | error rejection =>
    rw [hparse] at hsays
    obtain ⟨number, herrors, -⟩ := hsays
    rw [refuses, herrors]
    rfl

theorem Inspector.Settled.legible (h : page.Settled payload links) : Legible page.view := by
  rw [h.view_eq]
  exact legible_inspectorView (legible_tableView _ _) (legible_statusView _ _)

/-- **The skeleton of a page** depends on the number of rows and on whether the payload is refused. -/
theorem Inspector.Settled.skeleton_eq (h : page.Settled payload links) (h' : page'.Settled payload' links')
    (hrows : page.table.drawn.rows.length = page'.table.drawn.rows.length)
    (hrefuses : page.refuses = page'.refuses) :
    skeleton (Markup.page page.view) = skeleton (Markup.page page'.view) := by
  have htable : bones (tableView (.choose none []) (inspectorInputs links)) =
      bones (tableView (.choose none []) (inspectorInputs links')) := by
    rw [h.length_rows, h'.length_rows] at hrows
    exact (bones_tableView_iff _ _ _ _).mpr hrows
  have hok : (parseLinks payload).isOk = (parseLinks payload').isOk := by
    rw [h.refuses_eq, h'.refuses_eq] at hrefuses
    exact Bool.not_inj hrefuses
  rw [h.legible.skeleton_eq, h'.legible.skeleton_eq, h.view_eq, h'.view_eq, inspectorView, inspectorView,
    bones_element, bones_element, bones_append, bones_append, bones_append, bones_append, htable,
    bones_statusView hok]

end

/-- **No text and no style changes the markup.** The skeleton of a table says how many links it has, and nothing
    else, whatever is in its labels, its links and its theme; tables are sealed. The skeleton of a page that is
    shown depends only on the number of rows and on whether the payload is refused; these pages are sealed, too. -/
theorem texts_change_no_markup :
    (∀ (theme theme' : Theme) (a b : Inputs),
      skeleton (tableHtml theme a) = skeleton (tableHtml theme' b) ↔ a.links.length = b.links.length) ∧
    (∀ (theme : Theme) (inputs : Inputs), Sealed (tableView theme inputs)) ∧
    (∀ page page' : Inspector, page.Reachable → page'.Reachable →
      page.table.drawn.rows.length = page'.table.drawn.rows.length → page.refuses = page'.refuses →
      skeleton (Markup.page page.view) = skeleton (Markup.page page'.view)) ∧
    ∀ page : Inspector, page.Reachable → Sealed page.view := by
  refine ⟨skeleton_tableHtml_iff, fun theme inputs => (legible_tableView theme inputs).sealed, ?_, ?_⟩
  · intro page page' h h' hrows hrefuses
    obtain ⟨payload, links, hsettled⟩ := h.settled
    obtain ⟨payload', links', hsettled'⟩ := h'.settled
    exact hsettled.skeleton_eq hsettled' hrows hrefuses
  · intro page h
    obtain ⟨payload, links, hsettled⟩ := h.settled
    exact hsettled.legible.sealed

/-- A page whose first payload typed is refused goes on to show the links that it had. -/
theorem Inspector.settled_refused {payload : String} {rejection : Rejection}
    (h : parseLinks payload = .error rejection) :
    (Inspector.fresh.draw.1.after [[payload]]).Settled payload (linksAt [] 0) := by
  have hpayload : payloadAt [[payload]] 1 = payload := rfl
  have hlinks : linksAt [[payload]] 1 = linksAt [] 0 := by
    rw [linksAt_succ_of_error (hpayload ▸ h), linksAt_zero, linksAt_zero]
  have hsettled := settled_after (Nat.le_refl [[payload]].length)
  rw [List.take_length, List.length_singleton, hpayload, hlinks] at hsettled
  exact hsettled

/-- Two payloads that are refused at different places: the messages differ, and the markup does not. -/
theorem texts_change_no_markup_refused :
    let page := Inspector.fresh.draw.1.after [["["]]
    let page' := Inspector.fresh.draw.1.after [["[1"]]
    page.refuses = true ∧ page'.refuses = true ∧
      skeleton (Markup.page page.view) = skeleton (Markup.page page'.view) := by
  intro page page'
  have h : page.Settled "[" (linksAt [] 0) := Inspector.settled_refused rfl
  have h' : page'.Settled "[1" (linksAt [] 0) := Inspector.settled_refused rfl
  have hrefuses : page.refuses = true := h.refuses_eq
  have hrefuses' : page'.refuses = true := h'.refuses_eq
  refine ⟨hrefuses, hrefuses', texts_change_no_markup.2.2.1 page page' ⟨_, rfl⟩ ⟨_, rfl⟩ ?_ ?_⟩
  · rw [h.length_rows, h'.length_rows]
  · rw [hrefuses, hrefuses']

end LinkPane
