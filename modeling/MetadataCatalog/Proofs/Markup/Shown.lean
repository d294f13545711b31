import MetadataCatalog.Markup.DocumentText
import MetadataCatalog.Proofs.Markup.Reading
import MetadataCatalog.Proofs.Text.Trimming

/-!
# What documents show

The text of a document is what its events show one after the other, without the blanks at its ends
(`ofBody_eq`). What an event shows depends on nothing but whether a text element is open: texts show
in text elements only, tabs and line breaks always, and the end of a paragraph shows as a line feed,
so that no paragraphs need to be kept.
-/

namespace MetadataCatalog.DocumentText

open Markup (Event)

/-! ## §1 Events -/

/-- Whether a text element is open behind an event. -/
def opens (inText : Bool) : Event → Bool
  | .opening "w:t" => true
  | .closing "w:t" => false
  | _ => inText

/-- Whether a text element is open behind events. -/
def textOpen (inText : Bool) (events : List Event) : Bool := events.foldl opens inText

/-- What an event shows wherever it stands. -/
def mark : Event → List Char
  | .empty "w:tab" => ['\t']
  | .empty "w:br" => ['\n']
  | .empty "w:cr" => ['\n']
  | .closing "w:p" => ['\n']
  | _ => []

/-- What an event shows, if its entities can be replaced. -/
def shown? (inText : Bool) : Event → Option (List Char)
  | .text written => if inText then unescape? written else some []
  | event => some (mark event)

/-- What events show one after the other. -/
def allShown? (inText : Bool) : List Event → Option (List Char)
  | [] => some []
  | event :: events => do
    let cs ← shown? inText event
    let more ← allShown? (opens inText event) events
    some (cs ++ more)

theorem textOpen_append (inText : Bool) (events more : List Event) :
    textOpen inText (events ++ more) = textOpen (textOpen inText events) more := List.foldl_append

theorem allShown?_append (inText : Bool) (events more : List Event) :
    allShown? inText (events ++ more) = (allShown? inText events).bind fun cs =>
      (allShown? (textOpen inText events) more).map (cs ++ ·) := by
  induction events generalizing inText with
  | nil => simp [allShown?, textOpen]
  | cons event events ih =>
    simp only [List.cons_append, allShown?, ih, textOpen, List.foldl_cons]
    cases shown? inText event with
    | none => rfl
    | some cs =>
      cases allShown? (opens inText event) events with
      | none => rfl
      | some ds =>
        simp only [Option.bind_eq_bind, Option.bind_some]
        cases allShown? (events.foldl opens (opens inText event)) more <;> simp

/-- An event without text shows its mark. -/
theorem shown?_of_not_text {inText : Bool} {event : Event}
    (h : inText = false ∨ ∀ written, event ≠ .text written) :
    shown? inText event = some (mark event) := by
  unfold shown?
  split
  · next written =>
    rcases h with rfl | h
    · rfl
    · exact absurd rfl (h written)
  · rfl

/-- Whether an event begins or ends a text element. -/
def isTextTag (event : Event) : Bool := event == .opening "w:t" || event == .closing "w:t"

theorem opens_of_not_isTextTag {event : Event} (h : isTextTag event = false) (inText : Bool) :
    opens inText event = inText := by
  unfold opens
  split
  · cases h
  · cases h
  · rfl

theorem all_isBlank_mark (event : Event) : (mark event).all Text.isBlank = true := by
  unfold mark
  split <;> rfl

section NoTextTags

variable {events : List Event} (h : ∀ event ∈ events, isTextTag event = false)
include h

theorem textOpen_of_no_textTag (inText : Bool) : textOpen inText events = inText := by
  induction events with
  | nil => rfl
  | cons event events ih =>
    rw [List.forall_mem_cons] at h
    rw [textOpen, List.foldl_cons, opens_of_not_isTextTag h.1]
    exact ih h.2

/-- Outside of text elements everything shows its mark. -/
theorem allShown?_of_no_textTag : allShown? false events = some (events.flatMap mark) := by
  induction events with
  | nil => rfl
  | cons event events ih =>
    rw [List.forall_mem_cons] at h
    rw [allShown?, shown?_of_not_text (.inl rfl), opens_of_not_isTextTag h.1, ih h.2]
    rfl

end NoTextTags

/-! ## §2 The state as a text -/

/-- What has been shown so far. -/
def State.flat (s : State) : List Char := s.paragraphs.flatMap (· ++ ['\n']) ++ s.current

/-- An event adds what it shows. -/
theorem step_shows (s : State) (event : Event) :
    (step s event).map (fun s' => (s'.inText, s'.flat)) =
      (shown? s.inText event).map fun cs => (opens s.inText event, s.flat ++ cs) := by
  fun_cases step s event
  case case3 written hopen =>
    cases h : unescape? written <;> simp [shown?, opens, hopen, h, State.flat, State.write]
  case case9 h₁ h₂ h₃ h₄ h₅ h₆ h₇ =>
    -- nothing else opens or shows anything
    have hopens : opens s.inText event = s.inText := by
      unfold opens
      split
      · exact (h₁ rfl).elim
      · exact (h₂ rfl).elim
      · rfl
    have hmark : mark event = [] := by
      unfold mark
      split
      · exact (h₄ rfl).elim
      · exact (h₅ rfl).elim
      · exact (h₆ rfl).elim
      · exact (h₇ rfl).elim
      · rfl
    rw [shown?_of_not_text (.inr h₃), hopens, hmark]
    simp
  all_goals simp [shown?, opens, mark, State.flat, State.write, *]

/-- And so do events. -/
theorem foldlM_step_shows (events : List Event) (s : State) :
    (events.foldlM step s).map (fun s' => (s'.inText, s'.flat)) =
      (allShown? s.inText events).map fun cs => (textOpen s.inText events, s.flat ++ cs) := by
  induction events generalizing s with
  | nil => simp [allShown?, textOpen]
  | cons event events ih =>
    have hstep := step_shows s event
    rw [List.foldlM_cons, allShown?]
    cases hs : step s event with
    | none =>
      rw [hs] at hstep
      rw [Option.map_eq_none_iff.mp hstep.symm]
      rfl
    | some s' =>
      rw [hs] at hstep
      obtain ⟨cs, hcs, heq⟩ := Option.map_eq_some_iff.mp hstep.symm
      obtain ⟨hopen, hflat⟩ := Prod.mk.injEq .. ▸ heq
      simp only [Option.bind_eq_bind, Option.bind_some, hcs, ih, ← hopen, ← hflat]
      cases allShown? (opens s.inText event) events <;> simp [textOpen]

/-! ## §3 Lines -/

/-- Paragraphs on lines of their own are the same text as paragraphs that end with a line feed, but
for the last one. -/
theorem intercalate_concat (lines : List (List Char)) (last : List Char) :
    List.intercalate ['\n'] (lines ++ [last]) = lines.flatMap (· ++ ['\n']) ++ last := by
  induction lines with
  | nil => simp
  | cons line lines ih =>
    have hne : lines ++ [last] ≠ [] := by simp
    obtain ⟨next, rest, hrest⟩ := List.exists_cons_of_ne_nil hne
    rw [List.cons_append, hrest, List.intercalate_cons_cons, ← hrest, ih]
    simp

theorem trimChars_intercalate (lines : List (List Char)) :
    Text.trimChars (List.intercalate ['\n'] lines) =
      Text.trimChars (lines.flatMap (· ++ ['\n'])) := by
  cases lines using List.reverseRecOn with
  | nil => rfl
  | append_singleton lines last =>
    have hfeed : ['\n'].all Text.isBlank = true := by decide
    rw [intercalate_concat, List.flatMap_append, List.flatMap_singleton, ← List.append_assoc,
      Text.trimChars_append_blanks _ hfeed]

theorem trimChars_finish (s : State) :
    Text.trimChars (List.intercalate ['\n'] s.finish) = Text.trimChars s.flat := by
  unfold State.finish State.flat
  split
  · next h => rw [h, List.append_nil, trimChars_intercalate]
  · rw [intercalate_concat]

/-- The text of a document is what its events show, trimmed. -/
theorem ofBody_eq (body : String) :
    ofBody body = match (Markup.events? body.toList).bind (allShown? false) with
      | some cs => .ok (String.ofList (Text.trimChars cs))
      | none => .error .document := by
  unfold ofBody paragraphs?
  cases Markup.events? body.toList with
  | none => rfl
  | some events =>
    have hshows := foldlM_step_shows events .start
    cases hlast : events.foldlM step .start with
    | none =>
      rw [hlast] at hshows
      have hnone : allShown? false events = none := Option.map_eq_none_iff.mp hshows.symm
      simp [hlast, hnone]
    | some last =>
      rw [hlast] at hshows
      obtain ⟨cs, hcs, heq⟩ := Option.map_eq_some_iff.mp hshows.symm
      have hflat : cs = last.flat := (Prod.mk.inj heq).2
      have hcs : allShown? false events = some last.flat := hcs.trans (congrArg some hflat)
      simp [hlast, hcs, trimChars_finish]

end MetadataCatalog.DocumentText
