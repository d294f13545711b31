import MetadataCatalog.Proofs.Markup.Tags

/-!
# Layouts

How things are laid out in marked-up text: one after the other, with texts, asides and properly
nested elements between them and around them (`Laid`). The reader goes over such markup and comes
out with the elements open that were open before; what it has read in between are events of the
elements that the layout allows (`exists_passes_of_laid`).
-/

namespace MetadataCatalog.Markup

/-! ## §1 Layouts -/

/-- A list of items as it can be written when `Unit a` says how one item is written, and `Other` which
elements may stand between the items and around them. -/
inductive Laid {α : Type} (Other : String → Prop) (Unit : α → List Char → Prop) :
    List α → List Char → Prop where
  /-- Nothing. -/
  | nil : Laid Other Unit [] []
  /-- A character of a text between tags. -/
  | text {c : Char} {items : List α} {cs : List Char} (hc : c ≠ '<')
      (hcs : Laid Other Unit items cs) :
      Laid Other Unit items (c :: cs)
  /-- A comment or another aside. -/
  | aside {aside : List Char} {items : List α} {cs : List Char} (ha : IsAside aside)
      (hcs : Laid Other Unit items cs) : Laid Other Unit items (aside ++ cs)
  /-- An element without content in the short form. -/
  | empty {name : String} {attributes : List Char} {items : List α} {cs : List Char}
      (hname : IsName name) (hother : Other name) (hattributes : Attributes attributes)
      (hcs : Laid Other Unit items cs) :
      Laid Other Unit items (emptyTag name attributes ++ cs)
  /-- An element with some of the items in it. -/
  | element {name : String} {attributes blanks : List Char} {inner items : List α}
      {content cs : List Char} (hname : IsName name) (hother : Other name)
      (hattributes : Attributes attributes) (hblanks : areTagBlanks blanks = true)
      (hcontent : Laid Other Unit inner content) (hcs : Laid Other Unit items cs) :
      Laid Other Unit (inner ++ items)
        (startTag name attributes ++ content ++ endTag name blanks ++ cs)
  /-- An item. -/
  | unit {a : α} {items : List α} {written cs : List Char} (ha : Unit a written)
      (hcs : Laid Other Unit items cs) : Laid Other Unit (a :: items) (written ++ cs)

namespace Laid

variable {α : Type} {Other : String → Prop} {Unit : α → List Char → Prop}

/-- A character that is no bracket belongs to a text between tags. -/
theorem tail (hunit : ∀ a written, Unit a written → ∃ rest, written = '<' :: rest) {items : List α}
    {c : Char} {cs : List Char} (hc : c ≠ '<') (h : Laid Other Unit items (c :: cs)) :
    Laid Other Unit items cs := by
  generalize hall : c :: cs = all at h
  cases h with
  | nil => cases hall
  | text _ hcs =>
    obtain ⟨-, rfl⟩ := List.cons.inj hall
    exact hcs
  | aside ha _ =>
    obtain ⟨rest, rfl⟩ := ha.begins
    exact absurd (List.cons.inj hall).1 hc
  | empty => exact absurd (List.cons.inj hall).1 hc
  | element => exact absurd (List.cons.inj hall).1 hc
  | unit ha _ =>
    obtain ⟨rest, rfl⟩ := hunit _ _ ha
    exact absurd (List.cons.inj hall).1 hc

/-- A byte order mark in front does not belong to the layout. -/
theorem unmarked (hunit : ∀ a written, Unit a written → ∃ rest, written = '<' :: rest)
    {items : List α} {cs : List Char} (h : Laid Other Unit items cs) :
    Laid Other Unit items (unmarked cs) := by
  cases cs with
  | nil => exact h
  | cons c cs =>
    rw [unmarked_cons]
    split
    · next hc => exact h.tail hunit (by rw [hc]; decide)
    · exact h

end Laid

/-- Items that can be written can be laid out, if only one right behind the other. -/
theorem exists_laid {α : Type} (Other : String → Prop) {Unit : α → List Char → Prop}
    (hunit : ∀ a, ∃ written, Unit a written) (items : List α) :
    ∃ cs, Laid Other Unit items cs := by
  induction items with
  | nil => exact ⟨[], .nil⟩
  | cons a items ih =>
    obtain ⟨cs, hcs⟩ := ih
    obtain ⟨written, hwritten⟩ := hunit a
    exact ⟨_, .unit hwritten hcs⟩

/-- Well-formed markup without items, in which all elements have allowed names. -/
def IsContent (Other : String → Prop) (cs : List Char) : Prop :=
  Laid Other (fun (_ : Empty) _ => False) [] cs

/-- A well-formed element with the given name. -/
structure IsElement (Other : String → Prop) (name : String) (cs : List Char) : Prop where
  isName : IsName name
  eq : ∃ attributes content blanks, Attributes attributes ∧ IsContent Other content ∧
    areTagBlanks blanks = true ∧ cs = startTag name attributes ++ content ++ endTag name blanks

/-! ## §2 Events of content -/

/-- The name in a tag. -/
def Event.name? : Event → Option String
  | .opening name => some name
  | .closing name => some name
  | .empty name => some name
  | _ => none

/-- Whether all the tags among events have allowed names. -/
def NamesOnly (Other : String → Prop) (events : List Event) : Prop :=
  ∀ event ∈ events, ∀ name ∈ event.name?, Other name

theorem namesOnly_nil (Other : String → Prop) : NamesOnly Other [] := by simp [NamesOnly]

theorem NamesOnly.append {Other : String → Prop} {events more : List Event}
    (h : NamesOnly Other events) (hmore : NamesOnly Other more) : NamesOnly Other (events ++ more) :=
  fun event hevent => (List.mem_append.mp hevent).elim (h event) (hmore event)

theorem NamesOnly.cons {Other : String → Prop} {event : Event} {events : List Event}
    (h : NamesOnly Other events) (hevent : ∀ name ∈ event.name?, Other name) :
    NamesOnly Other (event :: events) :=
  List.forall_mem_cons.mpr ⟨hevent, h⟩

theorem other_of_name? {Other : String → Prop} {name : String} (h : Other name) :
    ∀ other ∈ some name, Other other := by
  rintro _ ⟨⟩
  exact h

theorem NamesOnly.withText {Other : String → Prop} {events : List Event}
    (h : NamesOnly Other events) (read : List Char) : NamesOnly Other (withText read events) := by
  unfold Markup.withText
  split
  · exact h
  · exact h.cons (by simp [Event.name?])

theorem withText_append (read : List Char) (events earlier : List Event) :
    withText read (events ++ earlier) = withText read events ++ earlier := by
  unfold withText
  split <;> rfl

/-- The reader goes over characters whatever has been read before: from the text `read` between tags
to the text `read'`, with the given events in between, which are of allowed names only. -/
structure Passes (Other : String → Prop) (read cs read' : List Char) (events : List Event) :
    Prop where
  allowed : NamesOnly Other events
  after : ∀ names earlier,
    (between read names earlier).after cs = between read' names (events ++ earlier)

namespace Passes

variable {Other : String → Prop} {read read' read'' cs ds : List Char} {events more : List Event}

theorem append (h : Passes Other read cs read' events) (hmore : Passes Other read' ds read'' more) :
    Passes Other read (cs ++ ds) read'' (more ++ events) where
  allowed := hmore.allowed.append h.allowed
  after names earlier := by rw [State.after_append, h.after, hmore.after, List.append_assoc]

theorem nil : Passes Other read [] read [] := ⟨namesOnly_nil Other, fun _ _ => rfl⟩

theorem text {c : Char} (hc : c ≠ '<') : Passes Other read [c] (c :: read) [] where
  allowed := namesOnly_nil Other
  after _ _ := step_between hc

theorem aside (h : IsAside cs) : Passes Other read cs [] (.aside :: withText read []) where
  allowed := ((namesOnly_nil Other).withText read).cons (by simp [Event.name?])
  after names earlier := by
    rw [after_aside h, List.cons_append, ← withText_append, List.nil_append]

variable {name : String} {attributes blanks : List Char} (hname : IsName name) (hother : Other name)
  (hattributes : Attributes attributes)
include hname hother hattributes

theorem empty :
    Passes Other read (emptyTag name attributes) [] (.empty name :: withText read []) where
  allowed := ((namesOnly_nil Other).withText read).cons (other_of_name? hother)
  after names earlier := by
    rw [after_emptyTag hname hattributes, List.cons_append, ← withText_append, List.nil_append]

theorem element (hblanks : areTagBlanks blanks = true) (h : Passes Other [] cs read' events) :
    Passes Other read (startTag name attributes ++ cs ++ endTag name blanks) []
      (.closing name :: withText read' (events ++ .opening name :: withText read [])) where
  allowed := by
    have hopening : NamesOnly Other (.opening name :: withText read []) :=
      ((namesOnly_nil Other).withText read).cons (other_of_name? hother)
    exact ((h.allowed.append hopening).withText read').cons (other_of_name? hother)
  after names earlier := by
    rw [State.after_append, State.after_append, after_startTag hname hattributes, h.after,
      after_endTag hname hblanks, List.cons_append, ← withText_append, List.append_assoc,
      List.cons_append, ← withText_append, List.nil_append]

end Passes

/-- The reader goes over all content. -/
theorem exists_passes_of_laid {Other : String → Prop} {items : List Empty} {cs : List Char}
    (h : Laid Other (fun _ _ => False) items cs) (read : List Char) :
    ∃ read' events, Passes Other read cs read' events := by
  induction h generalizing read with
  | nil => exact ⟨read, [], .nil⟩
  | @text c _ _ hc _ ih =>
    obtain ⟨read', events, h⟩ := ih (c :: read)
    exact ⟨read', _, (Passes.text hc).append h⟩
  | aside ha _ ih =>
    obtain ⟨read', events, h⟩ := ih []
    exact ⟨read', _, (Passes.aside ha).append h⟩
  | empty hname hother hattributes _ ih =>
    obtain ⟨read', events, h⟩ := ih []
    exact ⟨read', _, (Passes.empty hname hother hattributes).append h⟩
  | element hname hother hattributes hblanks _ _ ihcontent ih =>
    obtain ⟨inside, inner, hinner⟩ := ihcontent []
    obtain ⟨read', events, h⟩ := ih []
    exact ⟨read', _, (hinner.element hname hother hattributes hblanks).append h⟩
  | unit ha => exact ha.elim

/-- And so it does over an element, behind which it stands at the beginning of a text. -/
theorem IsElement.exists_passes {Other : String → Prop} {name : String} {cs : List Char}
    (h : IsElement Other name cs) (hother : Other name) (read : List Char) :
    ∃ events, Passes Other read cs [] events := by
  obtain ⟨attributes, content, blanks, hattributes, hcontent, hblanks, rfl⟩ := h.eq
  obtain ⟨inside, inner, hinner⟩ := exists_passes_of_laid hcontent []
  exact ⟨_, hinner.element h.isName hother hattributes hblanks⟩

/-- An element by itself has the events that it has in a document. -/
theorem IsElement.events?_eq {Other : String → Prop} {name : String} {block : List Char}
    {own : List Event} (h : IsElement Other name block) (hpasses : Passes Other [] block [] own) :
    events? block = some own.reverse := by
  obtain ⟨attributes, content, blanks, -, -, -, rfl⟩ := h.eq
  have hmarked : unmarked (startTag name attributes ++ content ++ endTag name blanks) =
      startTag name attributes ++ content ++ endTag name blanks := by
    rw [startTag, List.cons_append, List.cons_append, unmarked_cons, if_neg (by decide)]
  rw [Markup.events?_eq, hmarked, show State.start = between [] [] [] from rfl, hpasses.after,
    finish?_between, withText_nil, List.append_nil]

end MetadataCatalog.Markup
