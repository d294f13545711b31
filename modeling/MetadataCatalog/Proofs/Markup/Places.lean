import MetadataCatalog.Proofs.Markup.Layouts
import MetadataCatalog.Proofs.Markup.Shown

/-!
# Places in documents

A document can be cut at a place between two tags: it shows what the part before the place shows, then
what markup that is put in there shows, and then what the part behind it shows (`shown_at_place`).
The text of the document is all this without the blanks at the ends. So two kinds of markup, one of
which shows blanks at most, make a difference unless they show the same, or both nothing but blanks at
the beginning of the text or at its end (`textOf_eq_iff`).
-/

namespace MetadataCatalog.DocumentText

open Markup

/-! ## §1 Texts -/

/-- What characters show, when a text element is open in front of them or not. -/
def shownIn? (inText : Bool) (cs : List Char) : Option (List Char) :=
  (events? cs).bind (allShown? inText)

/-- The text of a document that is given by its characters. -/
def textOf (cs : List Char) : Except Fault String := ofBody (String.ofList cs)

theorem textOf_eq (cs : List Char) :
    textOf cs = match shownIn? false cs with
      | some shown => .ok (String.ofList (Text.trimChars shown))
      | none => .error .document := by
  rw [textOf, ofBody_eq, String.toList_ofList]
  rfl

theorem textOf_of_shown {cs shown : List Char} (h : shownIn? false cs = some shown) :
    textOf cs = .ok (String.ofList (Text.trimChars shown)) := by
  rw [textOf_eq, h]

theorem exists_shown_of_textOf {cs : List Char} {text : String} (h : textOf cs = .ok text) :
    ∃ shown, shownIn? false cs = some shown := by
  rw [textOf_eq] at h
  split at h
  · next shown hshown => exact ⟨shown, hshown⟩
  · cases h

section Differences

variable {document other before front between others back : List Char}

theorem textOf_eq_empty_iff (h : shownIn? false before = some front) :
    textOf before = .ok "" ↔ front.all Text.isBlank = true := by
  rw [textOf_of_shown h, ← Text.trimChars_eq_nil_iff]
  simp

/-- Texts are the same when what is shown is trimmed to the same. -/
theorem textOf_eq_textOf_iff {shown shown' : List Char} (h : shownIn? false document = some shown)
    (h' : shownIn? false other = some shown') :
    textOf document = textOf other ↔ Text.trimChars shown = Text.trimChars shown' := by
  rw [textOf_of_shown h, textOf_of_shown h', Except.ok.injEq, String.ofList_inj]

/-- What stands between two parts of a document makes no more difference to its text than blanks do
if it shows the same, or other blanks where the text begins or ends. -/
theorem textOf_eq_iff (hbefore : shownIn? false before = some front)
    (hdocument : shownIn? false document = some (front ++ between ++ back))
    (hother : shownIn? false other = some (front ++ others ++ back))
    (hothers : others.all Text.isBlank = true) :
    textOf document = textOf other ↔ between = others ∨
      between.all Text.isBlank = true ∧ (textOf before = .ok "" ∨ textOf before = textOf other) := by
  -- the other document ends with the part before when only blanks are behind
  have hend : Text.trimChars front = Text.trimChars (front ++ others ++ back) ↔
      back.all Text.isBlank = true := by
    have hnone : Text.trimChars (front ++ (others ++ back) ++ []) =
        Text.trimChars (front ++ [] ++ []) ↔ _ := Text.trimChars_between_iff rfl
    simp only [List.append_nil, ← List.append_assoc] at hnone
    rw [eq_comm, hnone, List.append_eq_nil_iff, List.all_append, hothers, Bool.true_and]
    constructor
    · rintro (⟨-, rfl⟩ | ⟨hback, -⟩)
      · rfl
      · exact hback
    · exact fun hback => .inr ⟨hback, .inr rfl⟩
  rw [textOf_eq_textOf_iff hdocument hother, textOf_eq_empty_iff hbefore,
    textOf_eq_textOf_iff hbefore hother, hend, Text.trimChars_between_iff hothers]

end Differences

/-! ## §2 Places -/

/-- The reader behind the beginning of a document. -/
def readerBehind (before : List Char) : Markup.State := Markup.State.start.after (unmarked before)

/-- Whether an element can begin behind characters: they end between two tags. -/
def IsPlace (before : List Char) : Prop := ∃ read, (readerBehind before).mode = .text read

/-- Whether characters end with the start tag of an element with the given name. -/
def EndsWithStart (name : String) (before : List Char) : Prop :=
  (readerBehind before).mode = .text [] ∧ (readerBehind before).events.head? = some (.opening name)

instance (name : String) (before : List Char) : Decidable (EndsWithStart name before) :=
  inferInstanceAs (Decidable (_ ∧ _))

/-- Whether a text element is open behind characters. -/
def textOpenBehind (before : List Char) : Bool :=
  textOpen false ((events? before).getD [])

/-- The events of the rest of a document, when those elements are open that its beginning leaves
open. -/
def eventsBehind? (before cs : List Char) : Option (List Event) :=
  finish? ((between [] (readerBehind before).openNames []).after cs)

theorem readerBehind_append {before cs : List Char}
    (h : before ≠ [] ∨ ∃ rest, cs = '<' :: rest) :
    readerBehind (before ++ cs) = (readerBehind before).after cs := by
  have hunmarked : unmarked (before ++ cs) = unmarked before ++ cs := by
    cases before with
    | nil =>
      obtain ⟨rest, rfl⟩ := h.resolve_left (by simp)
      rw [List.nil_append, unmarked_cons, if_neg (by decide)]
      rfl
    | cons c before =>
      rw [List.cons_append, unmarked_cons, unmarked_cons]
      split <;> rfl
  rw [readerBehind, hunmarked, Markup.State.after_append, readerBehind]

theorem IsPlace.exists_between {before : List Char} (h : IsPlace before) :
    ∃ read names events, readerBehind before = between read names events := by
  obtain ⟨read, hread⟩ := h
  refine ⟨read, (readerBehind before).openNames, (readerBehind before).events, ?_⟩
  rw [between, ← hread]

theorem EndsWithStart.exists_between {name : String} {before : List Char}
    (h : EndsWithStart name before) :
    before ≠ [] ∧ ∃ names events, readerBehind before = between [] names events := by
  constructor
  · rintro rfl
    cases h.2
  · refine ⟨(readerBehind before).openNames, (readerBehind before).events, ?_⟩
    rw [between, ← h.1]

section Cut

variable {before read : List Char} {names : List String} {events : List Event}
  (h : readerBehind before = between read names events)
include h

theorem events?_at_place : events? before = some (withText read events).reverse := by
  rw [events?_eq, ← readerBehind, h, finish?_between]

/-- A document that is cut at a place: markup there that brings its own events, then what follows. -/
theorem shown_at_place {markup : List Char} {own : List Event}
    (hbegins : before ≠ [] ∨ ∃ rest, markup = '<' :: rest)
    (hmarkup : (between read names events).after markup =
      between [] names (own ++ withText read events)) (cs : List Char) :
    shownIn? false (before ++ (markup ++ cs)) =
      (shownIn? false before).bind fun front =>
        (allShown? (textOpenBehind before) own.reverse).bind fun inside =>
          ((eventsBehind? before cs).bind
            (allShown? (textOpen (textOpenBehind before) own.reverse))).map fun back =>
              front ++ inside ++ back := by
  have hbegins : before ≠ [] ∨ ∃ rest, markup ++ cs = '<' :: rest :=
    hbegins.imp_right fun ⟨rest, hrest⟩ => ⟨rest ++ cs, by rw [hrest]; rfl⟩
  have hrest : between [] names (own ++ withText read events) =
      (between [] names []).behind (own ++ withText read events) := rfl
  have hopen : textOpenBehind before = textOpen false (withText read events).reverse := by
    rw [textOpenBehind, events?_at_place h, Option.getD_some]
  have hnames : eventsBehind? before cs = finish? ((between [] names []).after cs) := by
    rw [eventsBehind?, h]
    rfl
  rw [shownIn?, shownIn?, events?_at_place h, events?_eq, ← readerBehind,
    readerBehind_append hbegins, h, Markup.State.after_append, hmarkup, hrest,
    Markup.State.after_behind, Markup.State.finish?_behind, hopen, hnames, Option.bind_some]
  cases finish? ((between [] names []).after cs) with
  | none => simp
  | some behind =>
    rw [Option.map_some, Option.bind_some, Option.bind_some, List.reverse_append, List.append_assoc,
      allShown?_append]
    congr 1
    funext front
    rw [allShown?_append, Option.map_bind]
    congr 1
    funext inside
    simp only [Function.comp_apply, Option.map_map, Function.comp_def, List.append_assoc]

/-- So what it shows comes from three parts. -/
theorem exists_shown_at_place {markup cs shown : List Char} {own : List Event}
    (hbegins : before ≠ [] ∨ ∃ rest, markup = '<' :: rest)
    (hmarkup : (between read names events).after markup =
      between [] names (own ++ withText read events))
    (hshown : shownIn? false (before ++ (markup ++ cs)) = some shown) :
    ∃ front inside back, shownIn? false before = some front ∧
      allShown? (textOpenBehind before) own.reverse = some inside ∧
      (eventsBehind? before cs).bind
        (allShown? (textOpen (textOpenBehind before) own.reverse)) = some back ∧
      shown = front ++ inside ++ back := by
  rw [shown_at_place h hbegins hmarkup] at hshown
  obtain ⟨front, hfront, hshown⟩ := Option.bind_eq_some_iff.mp hshown
  obtain ⟨inside, hinside, hshown⟩ := Option.bind_eq_some_iff.mp hshown
  obtain ⟨back, hback, rfl⟩ := Option.map_eq_some_iff.mp hshown
  exact ⟨front, inside, back, hfront, hinside, hback, rfl⟩

end Cut

/-- Behind a start tag a document is cut without anything in between. -/
theorem EndsWithStart.exists_shown {name : String} {before cs shown : List Char}
    (h : EndsWithStart name before) (hshown : shownIn? false (before ++ cs) = some shown) :
    ∃ front back, shownIn? false before = some front ∧
      (eventsBehind? before cs).bind (allShown? (textOpenBehind before)) = some back ∧
      shown = front ++ [] ++ back := by
  obtain ⟨hne, names, events, hreader⟩ := h.exists_between
  have hnothing : (between [] names events).after [] =
      between [] names ([] ++ withText [] events) := rfl
  obtain ⟨front, inside, back, hfront, hinside, hback, rfl⟩ :=
    exists_shown_at_place hreader (.inl hne) hnothing hshown
  obtain rfl : inside = [] := (Option.some.inj hinside).symm
  exact ⟨front, back, hfront, hback, rfl⟩

end MetadataCatalog.DocumentText
