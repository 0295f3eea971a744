import LinkPane.Proofs.Markup.Entities

/-!
# The skeleton of a page

The text of a page can be taken apart again by looking at one character after the other, with no idea of what
was written: the tags and markers are its skeleton, and the texts between them and the values of its styles are
what fills it.

* `Region`, `Anatomy.step` -- where in a page a character stands, and what one more does;
* `dissect`, `skeleton`, `fillings` -- a whole page;
* `Piece.bones`, `Piece.fillings` -- what each piece of a page adds to either;
* **`Legible`** -- pieces that are taken apart into what they were put together from, whatever is before them;
  `legible_element`, `legible_listed` -- by how they are put together;
* **`Sealed`** -- a page on which nothing that fills it can be taken for markup; `Legible.sealed`.
-/

namespace LinkPane.Markup

/-! ## 1. Taking a page apart -/

/-- Where in a page a character stands. -/
inductive Region
  /-- Between two tags. -/
  | text
  /-- In a tag; `word` is what has been read of it since the last blank, latest first. -/
  | tag (word : List Char)
  /-- In the value of an attribute. -/
  | value (style : Bool)
  deriving DecidableEq, Repr

/-- What fills a page. -/
inductive Filling
  | text (content : List Char)
  | style (content : List Char)
  deriving DecidableEq, Repr

/-- A page as far as it is taken apart; `gap` is what has been read of the filling that is not at its end. -/
structure Anatomy where
  region : Region
  skeleton : List Char
  gap : List Char
  fillings : List Filling
  deriving DecidableEq, Repr

/-- The filling of a gap between two tags. There need not be any. -/
def textFilling (gap : List Char) : List Filling :=
  if gap = [] then [] else [.text gap]

/-- The region behind one more character of a tag. -/
def Region.inTag (word : List Char) (c : Char) : Region :=
  if c = '>' then .text
  else if c = '"' then .value (word.reverse == ['s', 't', 'y', 'l', 'e', '='])
  else if c = ' ' then .tag []
  else .tag (c :: word)

/-- Takes one more character apart. -/
def Anatomy.step (a : Anatomy) (c : Char) : Anatomy :=
  match a.region with
  | .text =>
    if c = '<' then ⟨.tag [], a.skeleton ++ [c], [], a.fillings ++ textFilling a.gap⟩
    else { a with gap := a.gap ++ [c] }
  | .tag word => { a with region := .inTag word c, skeleton := a.skeleton ++ [c] }
  | .value true =>
    if c = '"' then ⟨.tag [], a.skeleton ++ [c], [], a.fillings ++ [.style a.gap]⟩
    else { a with gap := a.gap ++ [c] }
  | .value false =>
    { a with region := if c = '"' then .tag [] else a.region, skeleton := a.skeleton ++ [c] }

/-- Takes some characters apart. -/
def Anatomy.read (a : Anatomy) (text : List Char) : Anatomy :=
  text.foldl Anatomy.step a

/-- Takes a page apart. -/
def dissect (html : String) : Anatomy :=
  Anatomy.read ⟨.text, [], [], []⟩ html.toList

/-- The tags and markers of a page, without what stands between them and without the values of its styles. -/
def skeleton (html : String) : List Char :=
  (dissect html).skeleton

/-- What fills a page. -/
def fillings (html : String) : List Filling :=
  (dissect html).fillings

section

variable {a : Anatomy} {s gap text word : List Char} {f : List Filling} {c : Char}

@[simp] theorem Anatomy.read_nil (a : Anatomy) : a.read [] = a := rfl

theorem Anatomy.read_append (a : Anatomy) (x y : List Char) : a.read (x ++ y) = (a.read x).read y :=
  List.foldl_append

theorem Anatomy.read_cons (a : Anatomy) (c : Char) (text : List Char) :
    a.read (c :: text) = (a.step c).read text := rfl

/-- Where every character stays in the gap, all of them do. -/
theorem read_gap {region : Region} (h : ∀ c ∈ text, ∀ gap : List Char,
    Anatomy.step ⟨region, s, gap, f⟩ c = ⟨region, s, gap ++ [c], f⟩) :
    Anatomy.read ⟨region, s, gap, f⟩ text = ⟨region, s, gap ++ text, f⟩ := by
  induction text generalizing gap with
  | nil => rw [Anatomy.read_nil, List.append_nil]
  | cons c text ih =>
    obtain ⟨hc, htext⟩ := List.forall_mem_cons.mp h
    rw [Anatomy.read_cons, hc, ih htext, List.append_assoc, List.singleton_append]

/-- A text in which no tag begins stays in its gap, -/
theorem read_text (h : ∀ c ∈ text, c ≠ '<') :
    Anatomy.read ⟨.text, s, gap, f⟩ text = ⟨.text, s, gap ++ text, f⟩ :=
  read_gap fun c hc gap => by simp only [Anatomy.step, if_neg (h c hc)]

/-- and so does the value of a style without a quote. -/
theorem read_style (h : ∀ c ∈ text, c ≠ '"') :
    Anatomy.read ⟨.value true, s, gap, f⟩ text = ⟨.value true, s, gap ++ text, f⟩ :=
  read_gap fun c hc gap => by simp only [Anatomy.step, if_neg (h c hc)]

/-- The value of any other attribute is part of the skeleton. -/
theorem read_value (h : ∀ c ∈ text, c ≠ '"') :
    Anatomy.read ⟨.value false, s, gap, f⟩ text = ⟨.value false, s ++ text, gap, f⟩ := by
  induction text generalizing s with
  | nil => rw [Anatomy.read_nil, List.append_nil]
  | cons c text ih =>
    obtain ⟨hc, htext⟩ := List.forall_mem_cons.mp h
    have hstep : Anatomy.step ⟨.value false, s, gap, f⟩ c = ⟨.value false, s ++ [c], gap, f⟩ := by
      simp only [Anatomy.step, if_neg hc]
    rw [Anatomy.read_cons, hstep, ih htext, List.append_assoc, List.singleton_append]

/-- So is a name in a tag. -/
theorem read_word (h : ∀ c ∈ text, c ∉ ['>', '"', ' ']) :
    Anatomy.read ⟨.tag word, s, gap, f⟩ text = ⟨.tag (text.reverse ++ word), s ++ text, gap, f⟩ := by
  induction text generalizing s word with
  | nil => rw [Anatomy.read_nil, List.append_nil, List.reverse_nil, List.nil_append]
  | cons c text ih =>
    obtain ⟨hc, htext⟩ := List.forall_mem_cons.mp h
    simp only [List.mem_cons, List.not_mem_nil, or_false, not_or] at hc
    have hstep : Anatomy.step ⟨.tag word, s, gap, f⟩ c = ⟨.tag (c :: word), s ++ [c], gap, f⟩ := by
      simp only [Anatomy.step, Region.inTag, if_neg hc.1, if_neg hc.2.1, if_neg hc.2.2]
    rw [Anatomy.read_cons, hstep, ih htext, List.append_assoc, List.singleton_append, List.reverse_cons,
      List.append_assoc, List.singleton_append]

end

/-! ## 2. The skeleton of pieces -/

/-- The names of tags and attributes. -/
def IsName (name : List Char) : Prop :=
  ∀ c ∈ name, c ∉ ['<', '>', '&', '"', ' ']

/-- An attribute with a name, which is not that of a style. -/
def Attribute.Tame : Attribute → Prop
  | .plain name _ => IsName name.toList ∧ name.toList ≠ ['s', 't', 'y', 'l', 'e']
  | .style _ => True

/-- What an attribute adds to the skeleton. -/
def Attribute.bones : Attribute → List Char
  | .plain name value => Attribute.render (.plain name value)
  | .style _ => [' ', 's', 't', 'y', 'l', 'e', '=', '"', '"']

/-- The filling of an attribute. -/
def Attribute.fillings : Attribute → List Filling
  | .plain _ _ => []
  | .style css => [.style (escapeQuoted (css.toList ++ [';']))]

/-- A tag or a marker. -/
def Piece.Tame : Piece → Prop
  | .opening tag attributes => IsName tag.toList ∧ ∀ attr ∈ attributes, attr.Tame
  | .closing tag => IsName tag.toList
  | .text _ => False
  | .marker => True

/-- What a piece adds to the skeleton. -/
def Piece.bones : Piece → List Char
  | .opening tag attributes => '<' :: tag.toList ++ attributes.flatMap Attribute.bones ++ ['>']
  | .closing tag => Piece.render (.closing tag)
  | .text _ => []
  | .marker => Piece.render .marker

/-- The fillings of a piece. -/
def Piece.fillings : Piece → List Filling
  | .opening _ attributes => attributes.flatMap Attribute.fillings
  | .closing _ => []
  | .text content => [.text (escape (visible content.toList))]
  | .marker => []

/-- The skeleton of pieces. -/
def bones (pieces : List Piece) : List Char :=
  pieces.flatMap Piece.bones

/-- The fillings of pieces. -/
def filled (pieces : List Piece) : List Filling :=
  pieces.flatMap Piece.fillings

@[simp] theorem bones_nil : bones [] = [] := rfl

@[simp] theorem filled_nil : filled [] = [] := rfl

@[simp] theorem bones_cons (piece : Piece) (pieces : List Piece) :
    bones (piece :: pieces) = piece.bones ++ bones pieces := rfl

@[simp] theorem filled_cons (piece : Piece) (pieces : List Piece) :
    filled (piece :: pieces) = piece.fillings ++ filled pieces := rfl

@[simp] theorem bones_append (a b : List Piece) : bones (a ++ b) = bones a ++ bones b := by
  simp [bones]

@[simp] theorem filled_append (a b : List Piece) : filled (a ++ b) = filled a ++ filled b := by
  simp [filled]

@[simp] theorem bones_element (tag : String) (attributes : List Attribute) (content : List Piece) :
    bones (element tag attributes content) =
      (Piece.opening tag attributes).bones ++ (bones content ++ (Piece.closing tag).bones) := by
  simp [element]

@[simp] theorem filled_element (tag : String) (attributes : List Attribute) (content : List Piece) :
    filled (element tag attributes content) = attributes.flatMap Attribute.fillings ++ filled content := by
  simp [element, Piece.fillings]

theorem flatMap_flatten {α β : Type} (f : α → List β) (xs : List (List α)) :
    xs.flatten.flatMap f = xs.flatMap fun x => x.flatMap f := by
  induction xs with
  | nil => rfl
  | cons x xs ih => rw [List.flatten_cons, List.flatMap_append, ih, List.flatMap_cons]

@[simp] theorem bones_listed (items : List (List Piece)) :
    bones (listed items) = items.flatMap bones ++ Piece.marker.bones := by
  rw [listed, bones_append, bones, flatMap_flatten, bones_cons, bones_nil, List.append_nil]
  rfl

@[simp] theorem filled_listed (items : List (List Piece)) : filled (listed items) = items.flatMap filled := by
  rw [listed, filled_append, filled, flatMap_flatten, filled_cons, filled_nil, List.append_nil, Piece.fillings,
    List.append_nil]
  rfl

/-- The text of an element around its content, -/
theorem render_element (tag : String) (attributes : List Attribute) (content : List Piece) :
    render (element tag attributes content) =
      (Piece.opening tag attributes).render ++ (render content ++ (Piece.closing tag).render) := by
  simp [element]

/-- and of a list. -/
theorem render_listed (items : List (List Piece)) :
    render (listed items) = items.flatMap render ++ Piece.marker.render := by
  rw [listed, render_append, render, flatMap_flatten, render_cons, render_nil, List.append_nil]
  rfl

section

variable {s gap word name : List Char} {f : List Filling}

theorem IsName.ne_amp (h : IsName name) : ∀ c ∈ name, c ≠ '&' := by
  rintro c hc rfl
  exact absurd (by decide) (h _ hc)

/-- A name goes on to its end. -/
theorem IsName.read_eq (h : IsName name) :
    Anatomy.read ⟨.tag word, s, gap, f⟩ name = ⟨.tag (name.reverse ++ word), s ++ name, gap, f⟩ := by
  refine read_word fun c hc hmem => h c hc ?_
  simp only [List.mem_cons, List.not_mem_nil, or_false] at hmem ⊢
  rcases hmem with rfl | rfl | rfl <;> simp

/-- Behind the name of an attribute it is known whether its value is a style. -/
theorem IsName.read_quote (h : IsName name) :
    Anatomy.read ⟨.tag word, s, gap, f⟩ (' ' :: (name ++ ['=', '"'])) =
      ⟨.value (decide (name = ['s', 't', 'y', 'l', 'e'])), s ++ ' ' :: (name ++ ['=', '"']), gap, f⟩ := by
  have hblank : Anatomy.step ⟨.tag word, s, gap, f⟩ ' ' = ⟨.tag [], s ++ [' '], gap, f⟩ := rfl
  have hstyle : (name ++ ['='] == ['s', 't', 'y', 'l', 'e', '=']) = decide (name = ['s', 't', 'y', 'l', 'e']) := by
    have happend : ['s', 't', 'y', 'l', 'e', '='] = ['s', 't', 'y', 'l', 'e'] ++ ['='] := rfl
    rw [Bool.eq_iff_iff, beq_iff_eq, decide_eq_true_eq, happend, List.append_left_inj]
  rw [Anatomy.read_cons, hblank, Anatomy.read_append, h.read_eq, List.append_nil]
  simp only [Anatomy.read_cons, Anatomy.read_nil, Anatomy.step, Region.inTag]
  simp [hstyle]

/-- An attribute is taken apart, wherever in a tag it stands. -/
theorem Attribute.Tame.read_eq {attr : Attribute} (h : attr.Tame) :
    Anatomy.read ⟨.tag word, s, [], f⟩ attr.render =
      ⟨.tag [], s ++ attr.bones, [], f ++ attr.fillings⟩ := by
  cases attr with
  | plain name value =>
    obtain ⟨hname, hstyle⟩ := h
    have hvalue : ∀ c ∈ escapeQuoted value.toList, c ≠ '"' := fun c hc => (ne_of_mem_escapeQuoted hc).1
    have hrender : (Attribute.plain name value).render =
        (' ' :: (name.toList ++ ['=', '"'])) ++ (escapeQuoted value.toList ++ ['"']) := by
      simp [Attribute.render]
    rw [Attribute.bones, Attribute.fillings, hrender, Anatomy.read_append, hname.read_quote,
      decide_eq_false hstyle, Anatomy.read_append, read_value hvalue]
    simp [Anatomy.read_cons, Anatomy.step]
  | style css =>
    have hname : IsName ['s', 't', 'y', 'l', 'e'] := by simp [IsName]
    have hvalue : ∀ c ∈ escapeQuoted (css.toList ++ [';']), c ≠ '"' := fun c hc => (ne_of_mem_escapeQuoted hc).1
    have hrender : (Attribute.style css).render =
        (' ' :: (['s', 't', 'y', 'l', 'e'] ++ ['=', '"'])) ++ (escapeQuoted (css.toList ++ [';']) ++ ['"']) := by
      simp [Attribute.render]
    rw [Attribute.bones, Attribute.fillings, hrender, Anatomy.read_append, hname.read_quote, decide_eq_true rfl,
      Anatomy.read_append, read_style hvalue]
    simp [Anatomy.read_cons, Anatomy.step]

theorem read_attributes {attributes : List Attribute} (h : ∀ attr ∈ attributes, attr.Tame)
    (word s : List Char) (f : List Filling) :
    ∃ word', Anatomy.read ⟨.tag word, s, [], f⟩ (attributes.flatMap Attribute.render) =
      ⟨.tag word', s ++ attributes.flatMap Attribute.bones, [], f ++ attributes.flatMap Attribute.fillings⟩ := by
  induction attributes generalizing word s f with
  | nil => exact ⟨word, by simp⟩
  | cons attr attributes ih =>
    obtain ⟨hattr, hrest⟩ := List.forall_mem_cons.mp h
    obtain ⟨word', hread⟩ := ih hrest [] (s ++ attr.bones) (f ++ attr.fillings)
    refine ⟨word', ?_⟩
    rw [List.flatMap_cons, Anatomy.read_append, hattr.read_eq, hread]
    simp

/-- **A tag is taken apart**, and fills the gap in front of it. -/
theorem Piece.Tame.read_eq {piece : Piece} (h : piece.Tame) :
    Anatomy.read ⟨.text, s, gap, f⟩ piece.render =
      ⟨.text, s ++ piece.bones, [], f ++ textFilling gap ++ piece.fillings⟩ := by
  have hopen : Anatomy.step ⟨.text, s, gap, f⟩ '<' = ⟨.tag [], s ++ ['<'], [], f ++ textFilling gap⟩ := rfl
  cases piece with
  | opening tag attributes =>
    obtain ⟨htag, hattributes⟩ := h
    obtain ⟨word, hread⟩ := read_attributes hattributes (tag.toList.reverse ++ []) (s ++ ['<'] ++ tag.toList)
      (f ++ textFilling gap)
    rw [Piece.render, List.cons_append, List.cons_append, Anatomy.read_cons, hopen, Anatomy.read_append,
      Anatomy.read_append, htag.read_eq, hread]
    simp [Anatomy.read_cons, Anatomy.step, Region.inTag, Piece.bones, Piece.fillings]
  | closing tag =>
    have hslash : Anatomy.step ⟨.tag [], s ++ ['<'], [], f ++ textFilling gap⟩ '/' =
        ⟨.tag ['/'], s ++ ['<'] ++ ['/'], [], f ++ textFilling gap⟩ := rfl
    rw [Piece.render, List.append_assoc, List.cons_append, List.cons_append, List.nil_append, Anatomy.read_cons,
      hopen, Anatomy.read_cons, hslash, Anatomy.read_append, IsName.read_eq h]
    simp [Anatomy.read_cons, Anatomy.step, Region.inTag, Piece.bones, Piece.fillings, Piece.render]
  | text content => exact absurd h id
  | marker =>
    simp [Piece.render, Anatomy.read_cons, Anatomy.step, Region.inTag, Piece.bones, Piece.fillings]

end

/-! ## 3. Legible pieces -/

/-- **Pieces that are taken apart** into their skeleton and their fillings, whatever is before them, and in
    which every `&` begins an entity. -/
structure Legible (pieces : List Piece) : Prop where
  read_eq : ∀ (s : List Char) (f : List Filling), Anatomy.read ⟨.text, s, [], f⟩ (render pieces) =
    ⟨.text, s ++ bones pieces, [], f ++ filled pieces⟩
  escaped : Escaped (render pieces)

section

variable {tag : String} {attributes : List Attribute} {content pieces : List Piece} {piece : Piece}

theorem IsName.escaped {name : List Char} (h : IsName name) : Escaped name :=
  escaped_of_ne h.ne_amp

theorem Attribute.Tame.escaped {attr : Attribute} (h : attr.Tame) : Escaped attr.render := by
  have hblank : Escaped [' '] := escaped_of_ne (by simp)
  have hquote : Escaped ['"'] := escaped_of_ne (by simp)
  have hequals : Escaped ['=', '"'] := escaped_of_ne (by simp)
  cases attr with
  | plain name value =>
    exact (((hblank.append h.1.escaped).append hequals).append (escaped_escapeQuoted _)).append hquote
  | style css =>
    have hstyle : Escaped "style".toList := escaped_of_ne (by simp)
    exact (((hblank.append hstyle).append hequals).append (escaped_escapeQuoted _)).append hquote

theorem Piece.Tame.escaped (h : piece.Tame) : Escaped piece.render := by
  have hopen : Escaped ['<'] := escaped_of_ne (by simp)
  have hclose : Escaped ['>'] := escaped_of_ne (by simp)
  cases piece with
  | opening tag attributes =>
    have hattributes : Escaped (attributes.flatMap Attribute.render) :=
      escaped_flatMap fun attr hattr => (h.2 attr hattr).escaped
    exact ((hopen.append h.1.escaped).append hattributes).append hclose
  | closing tag =>
    have hslash : Escaped ['<', '/'] := escaped_of_ne (by simp)
    exact (hslash.append (IsName.escaped h)).append hclose
  | text content => exact absurd h id
  | marker => exact escaped_of_ne (by simp [Piece.render])

theorem legible_nil : Legible [] := ⟨fun s f => by simp, .nil⟩

theorem Legible.append (h : Legible content) (h' : Legible pieces) : Legible (content ++ pieces) := by
  refine ⟨fun s f => ?_, ?_⟩
  · rw [render_append, Anatomy.read_append, h.read_eq, h'.read_eq]
    simp
  · rw [render_append]
    exact h.escaped.append h'.escaped

theorem Piece.Tame.legible (h : piece.Tame) : Legible [piece] := by
  refine ⟨fun s f => ?_, ?_⟩
  · rw [render_cons, render_nil, List.append_nil, h.read_eq]
    simp [textFilling]
  · rw [render_cons, render_nil, List.append_nil]
    exact h.escaped

/-- A text between two tags is a filling of its own. -/
theorem legible_text (hopen : (Piece.opening tag attributes).Tame) (t : String) :
    Legible (element tag attributes [.text t]) := by
  have hclose : (Piece.closing tag).Tame := hopen.1
  have hvisible : escape (visible t.toList) ≠ [] := by
    intro hnil
    have hempty : visible t.toList = [] := escape_injective hnil
    unfold visible at hempty
    split at hempty
    · cases hempty
    · rename_i hne
      exact hne hempty
  have hbracket : ∀ c ∈ escape (visible t.toList), c ≠ '<' := fun c hc => (ne_of_mem_escape hc).1
  have hrender : render (element tag attributes [.text t]) =
      (Piece.opening tag attributes).render ++ (escape (visible t.toList) ++ (Piece.closing tag).render) := by
    simp [element, Piece.render]
  refine ⟨fun s f => ?_, ?_⟩
  · rw [hrender, Anatomy.read_append, hopen.read_eq, Anatomy.read_append, read_text hbracket, hclose.read_eq]
    simp [element, textFilling, hvisible, Piece.fillings, Piece.bones]
  · rw [hrender]
    exact hopen.escaped.append ((escaped_escape _).append hclose.escaped)

/-- **An element is legible if its content is.** -/
theorem Legible.element (hopen : (Piece.opening tag attributes).Tame) (h : Legible content) :
    Legible (element tag attributes content) := by
  have hclose : (Piece.closing tag).Tame := hopen.1
  exact (hopen.legible.append h).append hclose.legible

/-- So is a list, if its items are. -/
theorem legible_listed {items : List (List Piece)} (h : ∀ item ∈ items, Legible item) :
    Legible (listed items) := by
  have hflatten : Legible items.flatten := by
    induction items with
    | nil => exact legible_nil
    | cons item items ih =>
      obtain ⟨hitem, hitems⟩ := List.forall_mem_cons.mp h
      exact hitem.append (ih hitems)
  have hmarker : Piece.Tame .marker := trivial
  exact hflatten.append hmarker.legible

theorem Legible.dissect_eq (h : Legible pieces) :
    dissect (page pieces) = ⟨.text, bones pieces, [], filled pieces⟩ := by
  rw [dissect, page, String.toList_ofList, h.read_eq]
  rfl

/-- **The skeleton of a page** is that of its pieces, -/
theorem Legible.skeleton_eq (h : Legible pieces) : skeleton (page pieces) = bones pieces := by
  rw [skeleton, h.dissect_eq]

/-- **and so are its fillings.** -/
theorem Legible.fillings_eq (h : Legible pieces) : fillings (page pieces) = filled pieces := by
  rw [fillings, h.dissect_eq]

end

/-! ## 4. Sealed pages -/

/-- A bracket of a tag. -/
def isBracket (c : Char) : Bool :=
  c == '<' || c == '>'

/-- **A page on which nothing that fills it can be taken for markup**: every filling is found where it was
    written, and whole; the brackets are those of the skeleton; no style has a quote or a bracket in it; and
    every `&` begins an entity. -/
structure Sealed (pieces : List Piece) : Prop where
  fillings_eq : fillings (page pieces) = filled pieces
  brackets : (page pieces).toList.filter isBracket = (skeleton (page pieces)).filter isBracket
  styles : ∀ value, .style value ∈ fillings (page pieces) → '"' ∉ value ∧ '<' ∉ value ∧ '>' ∉ value
  entity : ∀ front rest, (page pieces).toList = front ++ '&' :: rest →
    ∃ name ∈ entities.map Prod.snd, name <+: rest

theorem filter_escape (text : List Char) : (escape text).filter isBracket = [] := by
  refine List.filter_eq_nil_iff.mpr fun c hc => ?_
  obtain ⟨hopen, hclose⟩ := ne_of_mem_escape hc
  simp [isBracket, hopen, hclose]

theorem filter_escapeQuoted (text : List Char) : (escapeQuoted text).filter isBracket = [] := by
  refine List.filter_eq_nil_iff.mpr fun c hc => ?_
  obtain ⟨-, hopen, hclose⟩ := ne_of_mem_escapeQuoted hc
  simp [isBracket, hopen, hclose]

theorem Attribute.filter_render (attr : Attribute) :
    attr.render.filter isBracket = attr.bones.filter isBracket := by
  cases attr with
  | plain name value => rfl
  | style css =>
    simp only [render, bones, List.filter_append, filter_escapeQuoted, List.append_nil]
    rw [← List.filter_append]
    simp [isBracket]

/-- The brackets of a piece are those of its skeleton. -/
theorem Piece.filter_render (piece : Piece) : piece.render.filter isBracket = piece.bones.filter isBracket := by
  cases piece with
  | opening tag attributes =>
    have hattributes : (attributes.flatMap Attribute.render).filter isBracket =
        (attributes.flatMap Attribute.bones).filter isBracket := by
      simp only [List.filter_flatMap, Attribute.filter_render]
    simp only [render, bones, List.filter_append, hattributes]
  | closing tag => rfl
  | text content => exact filter_escape _
  | marker => rfl

/-- What fills a style is written without quotes and brackets. -/
theorem Piece.ne_of_mem_fillings {piece : Piece} {value : List Char} (h : .style value ∈ piece.fillings) :
    ∀ c ∈ value, c ≠ '"' ∧ c ≠ '<' ∧ c ≠ '>' := by
  cases piece with
  | opening tag attributes =>
    obtain ⟨attr, -, hattr⟩ := List.mem_flatMap.mp h
    cases attr with
    | plain name value => exact absurd hattr List.not_mem_nil
    | style css =>
      obtain ⟨⟩ := List.mem_singleton.mp hattr
      exact fun c hc => ne_of_mem_escapeQuoted hc
  | closing tag => exact absurd h List.not_mem_nil
  | text content => cases List.mem_singleton.mp h
  | marker => exact absurd h List.not_mem_nil

/-- **A legible page is sealed.** -/
theorem Legible.sealed {pieces : List Piece} (h : Legible pieces) : Sealed pieces := by
  refine ⟨h.fillings_eq, ?_, fun value hvalue => ?_, fun front rest hsplit => ?_⟩
  · rw [h.skeleton_eq, page, String.toList_ofList, render, bones]
    simp only [List.filter_flatMap, Piece.filter_render]
  · rw [h.fillings_eq] at hvalue
    obtain ⟨piece, -, hpiece⟩ := List.mem_flatMap.mp hvalue
    have hne := Piece.ne_of_mem_fillings hpiece
    exact ⟨fun hc => (hne _ hc).1 rfl, fun hc => (hne _ hc).2.1 rfl, fun hc => (hne _ hc).2.2 rfl⟩
  · rw [page, String.toList_ofList] at hsplit
    exact h.escaped.entity_of_amp hsplit

end LinkPane.Markup
