import MetadataCatalog.Proofs.Markup.Paragraphs
import MetadataCatalog.Proofs.Markup.Places

/-!
# Formatting

Paragraphs can begin with an element that says how they are laid out. It makes no difference to the
text of the document unless it has tags in it that show, or unless what it shows are blanks where the
text begins or ends (`same_text_with_properties_iff`). The name of the element for a tab is also the
one for a tab stop, so that tab stops do show (`tab_stop_shows`).
-/

namespace MetadataCatalog.DocumentText

open Markup

/-! ## §1 Elements without texts -/

/-- A tag of another name neither begins nor ends a text element. -/
theorem isTextTag_eq_false {event : Event} (h : ∀ name ∈ event.name?, name ≠ "w:t") :
    isTextTag event = false := by
  rw [isTextTag, Bool.or_eq_false_iff, beq_eq_false_iff_ne, beq_eq_false_iff_ne]
  constructor
  · rintro rfl
    exact h "w:t" rfl rfl
  · rintro rfl
    exact h "w:t" rfl rfl

/-- Elements of other names show nothing. -/
theorem mark_of_isOther {event : Event} (h : ∀ name ∈ event.name?, IsOther name) :
    mark event = [] := by
  cases event with
  | opening name => rfl
  | closing name => exact mark_closing (h name rfl).ne.2
  | empty name => exact mark_empty_of_isOther (h name rfl)
  | text written => rfl
  | aside => rfl

/-- An element of other names shows nothing outside of text elements. -/
theorem shownIn?_of_isElement {name : String} {block : List Char} (h : IsElement IsOther name block)
    (hname : IsOther name) : shownIn? false block = some [] := by
  obtain ⟨own, hpasses⟩ := h.exists_passes hname []
  have hown : ∀ event ∈ own.reverse, ∀ name ∈ event.name?, IsOther name :=
    fun event hevent => hpasses.allowed event (List.mem_reverse.mp hevent)
  have hmarks : own.reverse.flatMap mark = [] :=
    List.flatMap_eq_nil_iff.mpr fun event hevent => mark_of_isOther (hown event hevent)
  rw [shownIn?, h.events?_eq hpasses, Option.bind_some, allShown?_of_no_textTag, hmarks]
  exact fun event hevent => isTextTag_eq_false fun name hname => (hown event hevent name hname).ne.1

/-! ## §2 Elements at the beginning of a paragraph -/

/-- Behind a start tag an element without text elements shows what it shows by itself, and the rest of
the document shows the same as without it. -/
theorem EndsWithStart.shown_element {tag name : String} {before block : List Char}
    (hstart : EndsWithStart tag before) (hblock : IsElement (· ≠ "w:t") name block)
    (hname : name ≠ "w:t") (cs : List Char) : shownIn? false (before ++ block ++ cs) =
      (shownIn? false before).bind fun front =>
        (shownIn? (textOpenBehind before) block).bind fun inside =>
          ((eventsBehind? before cs).bind (allShown? (textOpenBehind before))).map fun back =>
            front ++ inside ++ back := by
  obtain ⟨hne, names, events, hreader⟩ := hstart.exists_between
  obtain ⟨own, hpasses⟩ := hblock.exists_passes hname []
  have hown : ∀ event ∈ own.reverse, isTextTag event = false := fun event hevent =>
    isTextTag_eq_false (hpasses.allowed event (List.mem_reverse.mp hevent))
  have hcut := shown_at_place hreader (.inl hne) (hpasses.after names events) cs
  rw [textOpen_of_no_textTag hown] at hcut
  have halone : shownIn? (textOpenBehind before) block =
      allShown? (textOpenBehind before) own.reverse := by
    rw [shownIn?, hblock.events?_eq hpasses, Option.bind_some]
  rw [List.append_assoc, hcut, halone]

/-- An element without text elements, at the beginning of a paragraph, makes no difference to the text
of a document exactly when it shows nothing, or nothing but blanks before anything else or after
everything else. Where no text element is open, an element of other names shows nothing. -/
theorem same_text_with_properties_iff {before block after : List Char} {text : String}
    (hstart : EndsWithStart "w:p" before) (hblock : IsElement (· ≠ "w:t") "w:pPr" block)
    (haccepted : textOf (before ++ after) = .ok text) :
    (textOf (before ++ block ++ after) = .ok text ↔
      ∃ cs, shownIn? (textOpenBehind before) block = some cs ∧ (cs = [] ∨
        cs.all Text.isBlank = true ∧ (textOf before = .ok "" ∨ textOf before = .ok text))) ∧
    (textOpenBehind before = false → IsElement IsOther "w:pPr" block →
      textOf (before ++ block ++ after) = .ok text) := by
  have hiff : textOf (before ++ block ++ after) = .ok text ↔
      ∃ cs, shownIn? (textOpenBehind before) block = some cs ∧ (cs = [] ∨
        cs.all Text.isBlank = true ∧ (textOf before = .ok "" ∨ textOf before = .ok text)) := by
    obtain ⟨shown, hwithout⟩ := exists_shown_of_textOf haccepted
    obtain ⟨front, back, hfront, hback, rfl⟩ := hstart.exists_shown hwithout
    have hwith := hstart.shown_element hblock (by decide) after
    rw [hfront, hback] at hwith
    rw [← haccepted]
    cases hcs : shownIn? (textOpenBehind before) block with
    | none =>
      rw [hcs] at hwith
      have hrefused : textOf (before ++ block ++ after) = .error .document := by
        rw [textOf_eq, hwith]
        rfl
      rw [hrefused, haccepted]
      simp
    | some cs =>
      rw [hcs] at hwith
      rw [textOf_eq_iff hfront hwith hwithout rfl]
      constructor
      · exact fun h => ⟨cs, rfl, h⟩
      · rintro ⟨_, ⟨⟩, h⟩
        exact h
  refine ⟨hiff, fun hopen hother => hiff.mpr ⟨[], ?_, .inl rfl⟩⟩
  rw [hopen]
  exact shownIn?_of_isElement hother (by decide)

/-- The beginning of a document, up to where its second paragraph begins. -/
def formattedFront : List Char :=
  "<w:document><w:body><w:p><w:r><w:t>a</w:t></w:r></w:p><w:p>".toList

/-- The rest of the document. -/
def formattedBack : List Char := "<w:r><w:t>b</w:t></w:r></w:p></w:body></w:document>".toList

/-- How the lines of the paragraph are aligned. -/
def alignment : List Char := "<w:pPr><w:jc w:val=\"both\"/></w:pPr>".toList

/-- Where the tabs of the paragraph stop. -/
def tabStops : List Char :=
  "<w:pPr><w:tabs><w:tab w:val=\"left\" w:pos=\"720\"/></w:tabs></w:pPr>".toList

theorem endsWithStart_formattedFront : EndsWithStart "w:p" formattedFront :=
  by decide +kernel

theorem isElement_alignment {Other : String → Prop} (hjc : Other "w:jc") :
    IsElement Other "w:pPr" alignment := by
  have hnone : Attributes [] := .blanks rfl
  have hvalue : Attributes ([' '] ++ "w:val".toList ++ [] ++ '=' :: [] ++ '"' :: "both".toList ++
      '"' :: []) :=
    .valued rfl (by decide) (by decide) rfl rfl (.inl rfl) (by decide) hnone
  have hname : IsName "w:jc" := by decide
  have hcontent : IsContent Other _ := .empty hname hjc hvalue .nil
  exact ⟨by decide, _, _, [], hnone, hcontent, rfl, by decide +kernel⟩

theorem same_text_with_properties_alignment :
    textOf (formattedFront ++ formattedBack) = .ok "a\nb" ∧
      textOf (formattedFront ++ alignment ++ formattedBack) = .ok "a\nb" := by
  have haccepted : textOf (formattedFront ++ formattedBack) = .ok "a\nb" := by
    rw [textOf_eq]
    decide +kernel
  have hother : IsElement IsOther "w:pPr" alignment := isElement_alignment (by decide)
  exact ⟨haccepted, (same_text_with_properties_iff endsWithStart_formattedFront
    (isElement_alignment (by decide)) haccepted).2 (by decide +kernel) hother⟩

/-- A tab stop has the name of a tab, and shows as one. -/
theorem tab_stop_shows : EndsWithStart "w:p" formattedFront ∧
    IsElement (· ≠ "w:t") "w:pPr" tabStops ∧
    textOf (formattedFront ++ formattedBack) = .ok "a\nb" ∧
    textOf (formattedFront ++ tabStops ++ formattedBack) = .ok "a\n\tb" := by
  have hnone : Attributes [] := .blanks rfl
  have hposition : Attributes ([' '] ++ "w:pos".toList ++ [] ++ '=' :: [] ++ '"' :: "720".toList ++
      '"' :: []) :=
    .valued rfl (by decide) (by decide) rfl rfl (.inl rfl) (by decide) hnone
  have hvalues : Attributes ([' '] ++ "w:val".toList ++ [] ++ '=' :: [] ++ '"' :: "left".toList ++
      '"' :: _) :=
    .valued rfl (by decide) (by decide) rfl rfl (.inl rfl) (by decide) hposition
  have htab : IsName "w:tab" ∧ "w:tab" ≠ "w:t" := by decide
  have htabs : IsContent (· ≠ "w:t") _ := .empty htab.1 htab.2 hvalues .nil
  have hname : IsName "w:tabs" ∧ "w:tabs" ≠ "w:t" := by decide
  have hblank : areTagBlanks [] = true := rfl
  have hcontent : IsContent (· ≠ "w:t") _ := .element hname.1 hname.2 hnone hblank htabs .nil
  have hblock : IsElement (· ≠ "w:t") "w:pPr" tabStops :=
    ⟨by decide, _, _, [], hnone, hcontent, rfl, by decide +kernel⟩
  refine ⟨endsWithStart_formattedFront, hblock, ?_, ?_⟩
  · rw [textOf_eq]
    decide +kernel
  · rw [textOf_eq]
    decide +kernel

end MetadataCatalog.DocumentText
