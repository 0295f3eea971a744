import LinkPane.Page.Inspector
import LinkPane.Proofs.Markup.Skeleton

/-!
# The text of the inspector

What a page of the inspector is as a text, spelled out element by element. But for the wording of an error nothing
of it is taken from what a page is put together from, so whatever a view, the layout or the theme left out would be
missed here.

* `shownText`, `elementText`, `styledText` -- a text between two tags, an element, a text with a style;
* `cellsText`, `rowText`, `tableText` -- four cells in a row; the row of a link; the table: its title, its header
  and a row for each link;
* `refusedText`, `statusText` -- what is said about a payload; **`pageText`**, **`inspectorText`** -- the page;
* `page_element`, `page_listed`, `page_text` -- pieces are written by how they are put together;
* `page_row`, `page_tableView`, `page_statusView` -- the parts of a page are written as spelled out, where
  `statusView` is what the page says as long as one error at most is thrown;
* **`page_inspectorView`** -- and so is the page.
-/

namespace LinkPane

open Markup

/-! ## 1. The page as a text -/

/-- A character between two tags. -/
def shownChar : Char → String
  | '&' => "&amp;"
  | '<' => "&lt;"
  | '>' => "&gt;"
  | c => String.singleton c

/-- A text between two tags. An empty one is shown as a space. -/
def shownText (text : String) : String :=
  if text = "" then " " else String.join (text.toList.map shownChar)

/-- An element around its content. -/
def elementText (tag attributes content : String) : String :=
  "<" ++ tag ++ attributes ++ ">" ++ content ++ "</" ++ tag ++ ">"

/-- An element with a style around a text. -/
def styledText (tag css text : String) : String :=
  elementText tag (" style=\"" ++ css ++ ";\"") (shownText text)

/-- A row of cells. Header and body differ in the tag and in the style of the first cell. -/
def cellsText (tag kindCss kind source target : String) : String :=
  elementText "tr" ""
    (styledText tag kindCss kind ++
      styledText tag "text-align: right; width: 100px;" source ++
      styledText tag "" "~" ++
      styledText tag "text-align: left; width: 100px;" target ++
      "<!>")

/-- The row of a link. -/
def rowText (link : Link) : String :=
  cellsText "td" "text-align: center; width: 100px;" link.kind link.source link.target

/-- The style of the pane around the table. -/
def paneText : String :=
  "background-color: lightgray; border: 2px solid grey; border-radius: 10px; margin: 10px; padding: 10px;"

/-- The table of some links, with a row for each of them. -/
def tableText (links : List Link) : String :=
  elementText "div" (" class=\"link-inspection-pane\"" ++ " style=\"" ++ paneText ++ ";\"")
    (styledText "div" "text-align: center;" "Link inspection pane" ++
      elementText "table" " class=\"table\""
        (elementText "thead" "" (cellsText "th" "" "Type" "Source" "Target") ++
          elementText "tbody" "" (String.join (links.map rowText) ++ "<!>")))

/-- Why a payload is refused: a list with one entry. -/
def refusedText (message : String) : String :=
  elementText "p" "" "Link payload rejected:" ++
    elementText "ul" "" (elementText "li" "" (shownText message) ++ "<!>")

/-- What is said about a payload under a table of `rows` rows. -/
def statusText (rows : Nat) : Except Rejection (List Link) → String
  | .ok _ => elementText "p" "" (toString rows ++ " links")
  | .error rejection => refusedText rejection.message

/-- A page with the table of some links and something said about the payload. -/
def pageText (links : List Link) (status : String) : String :=
  elementText "div" " class=\"link-inspector\""
    (tableText links ++ status ++
      elementText "textarea" " rows=\"10\" cols=\"80\" class=\"link-payload\"" "")

/-- The page of a payload under which some links are shown, which need not be its own. -/
def inspectorText (payload : String) (links : List Link) : String :=
  pageText links (statusText links.length (parseLinks payload))

/-! ## 2. Pieces as a text -/

section

variable {css text : String} {attributes : List Attribute}

theorem page_append (a b : List Piece) : page (a ++ b) = page a ++ page b := by
  rw [page, render_append, String.ofList_append]
  rfl

theorem page_element (h : attributes.flatMap Attribute.render = text.toList) (tag : String)
    (content : List Piece) : page (element tag attributes content) = elementText tag text (page content) := by
  refine String.toList_inj.mp ?_
  simp [page, render_element, Piece.render, elementText, h]

theorem page_plain (tag : String) (content : List Piece) :
    page (element tag [] content) = elementText tag "" (page content) :=
  page_element rfl tag content

theorem page_listed (items : List (List Piece)) :
    page (listed items) = String.join (items.map page) ++ "<!>" := by
  refine String.toList_inj.mp ?_
  simp [page, render_listed, Piece.render, List.flatMap_map]

theorem toList_shownChar (c : Char) : (shownChar c).toList = escapeChar c := by
  unfold shownChar escapeChar
  split <;> simp_all

theorem page_text (text : String) : page [.text text] = shownText text := by
  refine String.toList_inj.mp ?_
  unfold shownText
  split
  · rename_i hempty
    rw [hempty]
    rfl
  · rename_i hempty
    have hne : text.toList ≠ [] := by simpa using hempty
    simp [page, Piece.render, visible, hne, escape, List.flatMap_map, toList_shownChar]

/-- A text without special characters is shown as it is. -/
theorem shownText_of_plain (hne : text ≠ "") (h : ∀ c ∈ text.toList, c ∉ textEntities.map Prod.fst) :
    shownText text = text := by
  have hchar : ∀ c ∈ text.toList, shownChar c = String.singleton c := by
    intro c hc
    have hspecial := h c hc
    simp only [textEntities, List.map_cons, List.map_nil, List.mem_cons, List.not_mem_nil, or_false, not_or]
      at hspecial
    unfold shownChar
    split <;> simp_all
  refine String.toList_inj.mp ?_
  rw [shownText, if_neg hne, List.map_congr_left hchar, String.toList_join, List.flatMap_map]
  simp

/-- So is a number of links. -/
theorem shownText_links (n : Nat) : shownText (toString n ++ " links") = toString n ++ " links" := by
  have hdigits : (toString n).toList = Nat.toDigits 10 n := by simp
  have hlinks : " links".toList = [' ', 'l', 'i', 'n', 'k', 's'] := String.toList_ofList
  have hlist : (toString n ++ " links").toList = Nat.toDigits 10 n ++ [' ', 'l', 'i', 'n', 'k', 's'] := by
    rw [String.toList_append, hdigits, hlinks]
  refine shownText_of_plain (fun hempty => ?_) fun c hc hspecial => ?_
  · rw [hempty] at hlist
    simp at hlist
  · rw [hlist, List.mem_append] at hc
    simp only [textEntities, List.map_cons, List.map_nil, List.mem_cons, List.not_mem_nil, or_false] at hspecial
    rcases hc with hc | hc
    · have hdigit : c.isDigit = true := Nat.isDigit_of_mem_toDigits (by decide) (by decide) hc
      rcases hspecial with rfl | rfl | rfl <;> simp at hdigit
    · rcases hspecial with rfl | rfl | rfl <;> simp at hc

/-- Nothing in the text is hidden where it is a style. -/
def Bare (css : String) : Prop :=
  ∀ c ∈ css.toList, c ∉ entities.map Prod.fst

/-- The hypothesis is a computation, and not the quantifier over all characters, so that it holds by `rfl`. -/
theorem bare_ofList {css : List Char} (h : css.all (fun c => !(entities.map Prod.fst).contains c) = true) :
    Bare (String.ofList css) := by
  intro c hc
  rw [String.toList_ofList] at hc
  have hnot := List.all_eq_true.mp h c hc
  rwa [Bool.not_eq_true', ← Bool.not_eq_true, List.contains_iff_mem] at hnot

/-- The value of a style ends in one more semicolon. -/
theorem Bare.render_style (h : Bare css) :
    (Attribute.style css).render = (" style=\"" ++ css ++ ";\"").toList := by
  have hchar : ∀ c ∈ css.toList, escapeQuotedChar c = [c] := by
    intro c hc
    rcases writes_escapeQuotedChar c with ⟨name, hname, -⟩ | ⟨-, hform⟩
    · exact absurd (List.mem_map_of_mem hname) (h c hc)
    · exact hform
  have hcss : css.toList.flatMap escapeQuotedChar = css.toList := by
    rw [List.flatMap_def, List.map_congr_left hchar, ← List.flatMap_def, List.flatMap_singleton']
  have hend : escapeQuotedChar ';' = [';'] := rfl
  simp [Attribute.render, escapeQuoted, hcss, hend]

theorem page_styled (h : Bare css) (tag text : String) :
    page (element tag [.style css] [.text text]) = styledText tag css text := by
  have hstyle : [Attribute.style css].flatMap Attribute.render = (" style=\"" ++ css ++ ";\"").toList := by
    rw [List.flatMap_singleton, h.render_style]
  rw [page_element hstyle, page_text, styledText]

end

/-! ## 3. The table -/

section

variable {css : String}

theorem page_cell {cell : Cell} (hcss : cell.style.css = css) (hbare : Bare css) (tag : String) :
    page (cell.view tag) = styledText tag css cell.text := by
  rw [Cell.view, hcss, page_styled hbare]

theorem page_cells_view (tag : String) (cells : Cells) : page (cells.view tag) =
    elementText "tr" "" (page (cells.kind.view tag) ++ page (cells.source.view tag) ++
      page (cells.separator.view tag) ++ page (cells.target.view tag) ++ "<!>") := by
  rw [Cells.view, page_plain, page_listed, Cells.toList]
  simp [String.append_assoc]

/-- A row under the standard theme, whatever its first cell. -/
theorem page_cells (kind : Cell) (hcss : kind.style.css = css) (hbare : Bare css) (tag source target : String) :
    page (Cells.view tag
      { kind := kind
        source := ⟨source, Theme.standard.source⟩
        separator := ⟨Theme.standard.separator, Theme.standard.separatorColumn⟩
        target := ⟨target, Theme.standard.target⟩ }) = cellsText tag css kind.text source target := by
  have hright : Theme.standard.source.css = "text-align: right; width: 100px;" := rfl
  have hleft : Theme.standard.target.css = "text-align: left; width: 100px;" := rfl
  have hnone : Theme.standard.separatorColumn.css = "" := rfl
  rw [page_cells_view, page_cell hcss hbare, page_cell hright (bare_ofList rfl),
    page_cell hnone (bare_ofList rfl), page_cell hleft (bare_ofList rfl)]
  rfl

end

theorem page_header (links : List Link) :
    page ((headerCells .standard (inspectorInputs links)).view "th") =
      cellsText "th" "" "Type" "Source" "Target" := by
  have hnone : ColumnStyle.blank.css = "" := rfl
  exact page_cells ⟨kindHeader, .blank⟩ hnone (bare_ofList rfl) "th" "Source" "Target"

/-- **The row of a link** has its kind, its source, the separator and its target, in that order. -/
theorem page_row (link : Link) : page ((linkCells .standard link).view "td") = rowText link := by
  have hcenter : Theme.standard.kind.css = "text-align: center; width: 100px;" := rfl
  exact page_cells ⟨link.kind, Theme.standard.kind⟩ hcenter (bare_ofList rfl) "td" link.source link.target

example : rowText ⟨"net", "a<b", ""⟩ =
    "<tr><td style=\"text-align: center; width: 100px;;\">net</td>" ++
      "<td style=\"text-align: right; width: 100px;;\">a&lt;b</td><td style=\";\">~</td>" ++
      "<td style=\"text-align: left; width: 100px;;\"> </td><!></tr>" := by
  decide +kernel

theorem page_rows (links : List Link) :
    ((Drawn.of (.of .standard (inspectorInputs links))).rows.map Prod.snd).map page = links.map rowText := by
  have hrow : ∀ index link, page ((Row.of Theme.standard index link).cells.view "td") = rowText link :=
    fun _ link => page_row link
  rw [Drawn.rows_of, Layout.rows_of]
  refine List.ext_getElem (by simp [inspectorInputs]) fun index _ _ => ?_
  simp [hrow, inspectorInputs]

theorem css_pane : Theme.standard.pane.css = paneText := by
  simp [Theme.standard, PaneStyle.css, PaneStyle.standard, declaration, paneText]

theorem render_pane :
    [Attribute.plain "class" "link-inspection-pane", .style paneText].flatMap Attribute.render =
      (" class=\"link-inspection-pane\"" ++ " style=\"" ++ paneText ++ ";\"").toList := by
  have hbare : Bare paneText := bare_ofList rfl
  have hclass : (Attribute.plain "class" "link-inspection-pane").render =
      " class=\"link-inspection-pane\"".toList := by
    rw [String.toList_ofList]
    rfl
  rw [List.flatMap_cons, List.flatMap_singleton, hclass, hbare.render_style, ← String.toList_append]
  simp only [String.append_assoc]

/-- **The table of some links** has a row for each of them. -/
theorem page_tableView (links : List Link) :
    page (tableView (.choose none []) (inspectorInputs links)) = tableText links := by
  have htheme : Theme.choose none [] = .standard := rfl
  have htitle : page (element "div" [.style "text-align: center;"] [.text Theme.standard.title]) =
      styledText "div" "text-align: center;" "Link inspection pane" :=
    page_styled (bare_ofList rfl) "div" Theme.standard.title
  have hclass : [Attribute.plain "class" "table"].flatMap Attribute.render = " class=\"table\"".toList := rfl
  rw [htheme, tableView, Drawn.view, Drawn.title_of, Drawn.header_of, css_pane, page_element render_pane,
    page_append, page_element hclass, page_append, page_plain, page_plain, page_listed, page_rows, tableText,
    ← page_header links, ← htitle]
  rfl

/-! ## 4. The page -/

/-- What is to be said about a payload while `rows` rows are shown. -/
def statusView (rows : Nat) : Except Rejection (List Link) → List Piece
  | .ok _ => element "p" [] [.text (toString rows ++ " links")]
  | .error rejection =>
    element "p" [] [.text "Link payload rejected:"] ++
      element "ul" [] (listed [element "li" [] [.text rejection.message]])

theorem page_statusView (rows : Nat) (read : Except Rejection (List Link)) :
    page (statusView rows read) = statusText rows read := by
  cases read with
  | ok links =>
    rw [statusView, page_plain, page_text, shownText_links, statusText]
  | error rejection =>
    have hplain : shownText "Link payload rejected:" = "Link payload rejected:" := rfl
    rw [statusView, page_append, page_plain, page_text, hplain, page_plain, page_listed, List.map_singleton,
      page_plain, page_text, String.join_cons, String.join_nil, String.append_empty, statusText, refusedText]

/-- **A page is written as spelled out.** -/
theorem page_inspectorView (payload : String) (links : List Link) :
    page (inspectorView (tableView (.choose none []) (inspectorInputs links))
      (statusView links.length (parseLinks payload))) = inspectorText payload links := by
  have hclass : [Attribute.plain "class" "link-inspector"].flatMap Attribute.render =
      " class=\"link-inspector\"".toList := rfl
  have harea : [Attribute.plain "rows" "10", .plain "cols" "80", .plain "class" "link-payload"].flatMap
      Attribute.render = " rows=\"10\" cols=\"80\" class=\"link-payload\"".toList := by
    rw [String.toList_ofList]
    rfl
  rw [inspectorView, page_element hclass, page_append, page_append, page_element harea, page_tableView,
    page_statusView]
  rfl

end LinkPane
