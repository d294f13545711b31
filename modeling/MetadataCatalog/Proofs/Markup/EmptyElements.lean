import MetadataCatalog.Proofs.Markup.Paragraphs
import MetadataCatalog.Proofs.Markup.Places

/-!
# Empty elements

An element without content can be written as one tag or as two. To the text of a document the two
forms are the same for elements of other names, but not for those that make the text
(`same_text_in_long_form_iff`): tabs and line breaks show in the short form only and ends of
paragraphs in the long form only, and the end tag of an element `w:t` ends the text around it. What
saves the text in these cases is that nothing but blanks comes before, or after.
-/

namespace MetadataCatalog.DocumentText

open Markup

/-! ## §1 The two forms -/

/-- An element without content, as a start tag and an end tag. -/
def longForm (name : String) (attributes blanks : List Char) : List Char :=
  startTag name attributes ++ endTag name blanks

/-- The names of the elements that show in one of the forms only. -/
def markNames : List String := ["w:tab", "w:br", "w:cr", "w:p"]

theorem mark_empty_eq_mark_closing_iff (name : String) :
    mark (.empty name) = mark (.closing name) ↔ name ∉ markNames := by
  by_cases hother : IsOther name
  · have hnone : name ∉ markNames := fun hname => hother (by
      simp only [markNames, List.mem_cons] at hname
      simp only [pieceNames, List.mem_cons]
      tauto)
    simp [mark_empty_of_isOther hother, mark_closing hother.ne.2, hnone]
  · rw [IsOther, not_not] at hother
    simp only [pieceNames, List.mem_cons, List.not_mem_nil, or_false] at hother
    rcases hother with rfl | rfl | rfl | rfl | rfl <;> decide

theorem textOpen_longForm (name : String) (inText : Bool) :
    textOpen inText [.opening name, .closing name] = (inText && name != "w:t") := by
  by_cases hname : name = "w:t"
  · subst hname
    simp [textOpen, opens]
  · simp [textOpen, opens_opening hname, opens_closing hname, hname]

section Forms

variable {before attributes blanks : List Char} {name : String} (hplace : IsPlace before)
  (hname : IsName name) (hattributes : Attributes attributes)
include hplace hname hattributes

/-- A document shows an element in the short form and what follows. -/
theorem shown_short (after : List Char) :
    shownIn? false (before ++ emptyTag name attributes ++ after) =
      (shownIn? false before).bind fun front =>
        ((eventsBehind? before after).bind (allShown? (textOpenBehind before))).map fun back =>
          front ++ mark (.empty name) ++ back := by
  obtain ⟨read, names, events, hreader⟩ := hplace.exists_between
  have hmarkup : (between read names events).after (emptyTag name attributes) =
      between [] names ([.empty name] ++ withText read events) := after_emptyTag hname hattributes
  have hshown : allShown? (textOpenBehind before) [Event.empty name].reverse =
      some (mark (.empty name)) := by
    simp [allShown?, shown?]
  have hbegins : ∃ rest, emptyTag name attributes = '<' :: rest := ⟨_, rfl⟩
  rw [List.append_assoc, shown_at_place hreader (.inr hbegins) hmarkup, hshown]
  rfl

/-- In the long form the text ends with the end tag of a text element. -/
theorem shown_long (hblanks : areTagBlanks blanks = true) (after : List Char) :
    shownIn? false (before ++ longForm name attributes blanks ++ after) =
      (shownIn? false before).bind fun front =>
        ((eventsBehind? before after).bind
          (allShown? (textOpenBehind before && name != "w:t"))).map fun back =>
            front ++ mark (.closing name) ++ back := by
  obtain ⟨read, names, events, hreader⟩ := hplace.exists_between
  have hmarkup : (between read names events).after (longForm name attributes blanks) =
      between [] names ([.closing name, .opening name] ++ withText read events) := by
    rw [longForm, Markup.State.after_append, after_startTag hname hattributes,
      after_endTag hname hblanks]
    rfl
  have hshown : allShown? (textOpenBehind before) [Event.closing name, .opening name].reverse =
      some (mark (.closing name)) := by
    simp [allShown?, shown?, mark]
  have hbegins : ∃ rest, longForm name attributes blanks = '<' :: rest := ⟨_, rfl⟩
  rw [List.append_assoc, shown_at_place hreader (.inr hbegins) hmarkup, hshown, ← textOpen_longForm]
  rfl

end Forms

/-! ## §2 Up to the next text element -/

/-- What the rest of a document shows up to the next tag of a text element. -/
def shownUntilTextTag? (inText : Bool) (before after : List Char) : Option (List Char) :=
  (eventsBehind? before after).bind fun events =>
    allShown? inText (events.takeWhile (!isTextTag ·))

/-- From the next tag of a text element on it makes no difference whether one was open. -/
theorem allShown?_dropWhile (inText : Bool) (events : List Event) :
    allShown? inText (events.dropWhile (!isTextTag ·)) =
      allShown? false (events.dropWhile (!isTextTag ·)) := by
  cases hrest : events.dropWhile (!isTextTag ·) with
  | nil => rfl
  | cons event rest =>
    have hevent := List.head?_dropWhile_not (!isTextTag ·) events
    rw [hrest] at hevent
    have hevent : isTextTag event = true := by simpa using hevent
    rw [isTextTag, Bool.or_eq_true, beq_iff_eq, beq_iff_eq] at hevent
    rcases hevent with rfl | rfl <;> rfl

theorem isTextTag_of_mem_takeWhile {event : Event} {events : List Event}
    (h : event ∈ events.takeWhile (!isTextTag ·)) : isTextTag event = false := by
  simpa using List.all_eq_true.mp List.all_takeWhile event h

section Rest

variable {before after : List Char}

/-- Outside of text elements it is blank. -/
theorem all_isBlank_shownUntilTextTag {marks : List Char}
    (h : shownUntilTextTag? false before after = some marks) : marks.all Text.isBlank = true := by
  obtain ⟨events, -, hmarks⟩ := Option.bind_eq_some_iff.mp h
  rw [allShown?_of_no_textTag fun _ => isTextTag_of_mem_takeWhile] at hmarks
  obtain rfl := Option.some.inj hmarks
  rw [List.all_flatMap]
  exact List.all_eq_true.mpr fun event _ => all_isBlank_mark event

/-- What follows then is the same whether a text element was open or not. -/
theorem exists_shown_rest {back : List Char} {inText : Bool}
    (h : (eventsBehind? before after).bind (allShown? inText) = some back) :
    ∃ marks rest, shownUntilTextTag? false before after = some marks ∧ ∀ inText,
      (eventsBehind? before after).bind (allShown? inText) =
        (shownUntilTextTag? inText before after).map (· ++ rest) := by
  obtain ⟨events, hevents, hback⟩ := Option.bind_eq_some_iff.mp h
  have hcut : ∀ inText, allShown? inText events =
      (allShown? inText (events.takeWhile (!isTextTag ·))).bind fun cs =>
        (allShown? false (events.dropWhile (!isTextTag ·))).map (cs ++ ·) := by
    intro inText
    conv_lhs => rw [← List.takeWhile_append_dropWhile (p := (!isTextTag ·)) (l := events)]
    rw [allShown?_append, textOpen_of_no_textTag fun _ => isTextTag_of_mem_takeWhile,
      allShown?_dropWhile]
  rw [hcut] at hback
  obtain ⟨_, -, hback⟩ := Option.bind_eq_some_iff.mp hback
  obtain ⟨rest, hrest, -⟩ := Option.map_eq_some_iff.mp hback
  have hmarks : shownUntilTextTag? false before after =
      some ((events.takeWhile (!isTextTag ·)).flatMap mark) := by
    rw [shownUntilTextTag?, hevents, Option.bind_some]
    exact allShown?_of_no_textTag fun _ => isTextTag_of_mem_takeWhile
  refine ⟨_, rest, hmarks, fun inText => ?_⟩
  · rw [shownUntilTextTag?, hevents, Option.bind_some, Option.bind_some, hcut, hrest,
      Option.map_eq_bind]
    rfl

end Rest

/-! ## §3 Both forms -/

section Compared

variable {before after attributes blanks front back : List Char} {name : String} {inText : Bool}

/-- What an accepted document shows before the element and after it. -/
theorem exists_parts_of_accepted (hplace : IsPlace before) (hname : IsName name)
    (hattributes : Attributes attributes) (hblanks : areTagBlanks blanks = true)
    (haccepted : ∃ text, textOf (before ++ emptyTag name attributes ++ after) = .ok text ∨
      textOf (before ++ longForm name attributes blanks ++ after) = .ok text) :
    ∃ front back inText, shownIn? false before = some front ∧
      (eventsBehind? before after).bind (allShown? inText) = some back ∧
      (inText = textOpenBehind before ∨ inText = (textOpenBehind before && name != "w:t")) := by
  have hparts : ∀ {inText inside shown}, ((shownIn? false before).bind fun front =>
      ((eventsBehind? before after).bind (allShown? inText)).map fun back =>
        front ++ inside ++ back) = some shown →
      ∃ front back, shownIn? false before = some front ∧
        (eventsBehind? before after).bind (allShown? inText) = some back := by
    intro inText inside shown hshown
    obtain ⟨front, hfront, hshown⟩ := Option.bind_eq_some_iff.mp hshown
    obtain ⟨back, hback, -⟩ := Option.map_eq_some_iff.mp hshown
    exact ⟨front, back, hfront, hback⟩
  obtain ⟨text, haccepted | haccepted⟩ := haccepted
  · obtain ⟨shown, hshown⟩ := exists_shown_of_textOf haccepted
    rw [shown_short hplace hname hattributes] at hshown
    obtain ⟨front, back, hfront, hback⟩ := hparts hshown
    exact ⟨front, back, _, hfront, hback, .inl rfl⟩
  · obtain ⟨shown, hshown⟩ := exists_shown_of_textOf haccepted
    rw [shown_long hplace hname hattributes hblanks] at hshown
    obtain ⟨front, back, hfront, hback⟩ := hparts hshown
    exact ⟨front, back, _, hfront, hback, .inr rfl⟩

variable (hplace : IsPlace before) (hattributes : Attributes attributes)
  (hblanks : areTagBlanks blanks = true) (hfront : shownIn? false before = some front)
  (hback : (eventsBehind? before after).bind (allShown? inText) = some back)
include hplace hattributes hblanks hfront hback

/-- An element that does not end a text shows its mark in one of the forms. -/
theorem mark_in_one_form_iff (hname : IsName name) (hshort : inText = textOpenBehind before)
    (hlong : inText = (textOpenBehind before && name != "w:t")) :
    textOf (before ++ emptyTag name attributes ++ after) =
        textOf (before ++ longForm name attributes blanks ++ after) ↔
      (name ∈ markNames → textOf before = .ok "" ∨
        textOf before = textOf (before ++ longForm name attributes blanks ++ after)) := by
  have hinShort := shown_short hplace hname hattributes after
  have hinLong := shown_long hplace hname hattributes hblanks after
  rw [hfront, ← hshort, hback] at hinShort
  rw [hfront, ← hlong, hback] at hinLong
  rw [textOf_eq_iff hfront hinShort hinLong (all_isBlank_mark _), mark_empty_eq_mark_closing_iff,
    all_isBlank_mark, imp_iff_not_or]
  simp only [true_and]

/-- A text element in a text element ends the text in the long form. -/
theorem text_ended_iff (hopen : textOpenBehind before = true) :
    textOf (before ++ emptyTag "w:t" attributes ++ after) =
        textOf (before ++ longForm "w:t" attributes blanks ++ after) ↔
      ∃ cs, shownUntilTextTag? true before after = some cs ∧
        (shownUntilTextTag? false before after = some cs ∨ cs.all Text.isBlank = true ∧
          (textOf before = .ok "" ∨
            textOf before = textOf (before ++ longForm "w:t" attributes blanks ++ after))) := by
  have hname : IsName "w:t" := by decide
  obtain ⟨marks, rest, hmarks, hrest⟩ := exists_shown_rest hback
  have hlong : shownIn? false (before ++ longForm "w:t" attributes blanks ++ after) =
      some (front ++ marks ++ rest) := by
    rw [shown_long hplace hname hattributes hblanks, hfront, hopen, Bool.true_and,
      bne_self_eq_false, hrest, hmarks]
    simp [mark]
  have hshort : shownIn? false (before ++ emptyTag "w:t" attributes ++ after) =
      (shownUntilTextTag? true before after).map (front ++ · ++ rest) := by
    rw [shown_short hplace hname hattributes, hfront, hopen, hrest]
    simp [mark, Function.comp_def]
  cases hcs : shownUntilTextTag? true before after with
  | none =>
    rw [hcs] at hshort
    rw [textOf_eq, hshort, textOf_of_shown hlong]
    simp
  | some cs =>
    rw [hcs] at hshort
    rw [textOf_eq_iff hfront hshort hlong (all_isBlank_shownUntilTextTag hmarks), hmarks]
    constructor
    · rintro (rfl | h)
      · exact ⟨cs, rfl, .inl rfl⟩
      · exact ⟨cs, rfl, .inr h⟩
    · rintro ⟨_, ⟨⟩, hsame | h⟩
      · exact .inl (Option.some.inj hsame).symm
      · exact .inr h

end Compared

/-- An element without content gives the same text in the short form and in the long form exactly when
what one of the forms shows is a blank before anything else or after everything else, and, for an
element `w:t` in a text element, when up to the next tag of a text element nothing else shows in it
than outside, or blanks before anything else or after everything else. -/
theorem same_text_in_long_form_iff {before after attributes blanks : List Char} {name : String}
    (hplace : IsPlace before) (hname : IsName name) (hattributes : Attributes attributes)
    (hblanks : areTagBlanks blanks = true)
    (haccepted : ∃ text, textOf (before ++ emptyTag name attributes ++ after) = .ok text ∨
      textOf (before ++ longForm name attributes blanks ++ after) = .ok text) :
    textOf (before ++ emptyTag name attributes ++ after) =
        textOf (before ++ longForm name attributes blanks ++ after) ↔
      (name ∈ markNames → textOf before = .ok "" ∨
        textOf before = textOf (before ++ longForm name attributes blanks ++ after)) ∧
      (name = "w:t" → textOpenBehind before = true →
        ∃ cs, shownUntilTextTag? true before after = some cs ∧
          (shownUntilTextTag? false before after = some cs ∨ cs.all Text.isBlank = true ∧
            (textOf before = .ok "" ∨
              textOf before = textOf (before ++ longForm name attributes blanks ++ after)))) := by
  obtain ⟨front, back, inText, hfront, hback, hinText⟩ :=
    exists_parts_of_accepted hplace hname hattributes hblanks haccepted
  by_cases hcase : name = "w:t" ∧ textOpenBehind before = true
  · obtain ⟨rfl, hopen⟩ := hcase
    have hno : "w:t" ∉ markNames := by decide
    rw [text_ended_iff hplace hattributes hblanks hfront hback hopen]
    exact ⟨fun h => ⟨fun hmark => absurd hmark hno, fun _ _ => h⟩, fun h => h.2 rfl hopen⟩
  · have hsame : (textOpenBehind before && name != "w:t") = textOpenBehind before := by
      cases hopen : textOpenBehind before with
      | false => rfl
      | true => simpa using fun hname => hcase ⟨hname, hopen⟩
    rw [hsame, or_self] at hinText
    rw [mark_in_one_form_iff hplace hattributes hblanks hfront hback hname hinText
      (hinText.trans hsame.symm)]
    exact ⟨fun h => ⟨h, fun hname hopen => absurd ⟨hname, hopen⟩ hcase⟩, fun h => h.1⟩

/-- The beginning of a document, up to a place in its paragraph. -/
def spacedFront : List Char := "<w:document><w:body><w:p><w:r><w:t>a</w:t>".toList

/-- The rest of the document. -/
def spacedBack : List Char := "<w:t>b</w:t></w:r></w:p></w:body></w:document>".toList

theorem isPlace_spacedFront : IsPlace spacedFront := ⟨[], by decide +kernel⟩

theorem same_text_in_long_form_bookmark :
    textOf (spacedFront ++ emptyTag "w:bookmarkEnd" [' '] ++ spacedBack) = .ok "ab" ∧
      textOf (spacedFront ++ longForm "w:bookmarkEnd" [' '] [] ++ spacedBack) = .ok "ab" := by
  have haccepted :
      textOf (spacedFront ++ emptyTag "w:bookmarkEnd" [' '] ++ spacedBack) = .ok "ab" := by
    rw [textOf_eq]
    decide +kernel
  have hsame := (same_text_in_long_form_iff isPlace_spacedFront
    (show IsName "w:bookmarkEnd" by decide) (.blanks (show areTagBlanks [' '] = true from rfl))
    (show areTagBlanks [] = true from rfl) ⟨"ab", .inl haccepted⟩).mpr
      ⟨fun hmark => absurd hmark (by decide), fun hname => absurd hname (by decide)⟩
  exact ⟨haccepted, hsame.symm.trans haccepted⟩

/-- A tab is lost in the long form. -/
theorem tab_lost_in_long_form : IsPlace spacedFront ∧
    textOf (spacedFront ++ emptyTag "w:tab" [] ++ spacedBack) = .ok "a\tb" ∧
      textOf (spacedFront ++ longForm "w:tab" [] [] ++ spacedBack) = .ok "ab" := by
  refine ⟨isPlace_spacedFront, ?_, ?_⟩
  · rw [textOf_eq]
    decide +kernel
  · rw [textOf_eq]
    decide +kernel

end MetadataCatalog.DocumentText
