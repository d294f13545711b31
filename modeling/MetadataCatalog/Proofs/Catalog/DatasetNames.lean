import MetadataCatalog.Catalog.Dataset
import MetadataCatalog.Proofs.Text.Trimming

/-!
# Names of datasets

A dataset is proper when each of its parts is trimmed, not blank and without slashes. Whatever makes
a dataset out of given parts makes a proper one (`isProper_of_ofParts`), and the written name of a
proper dataset names that dataset again (`ofText_text`).

A text names a dataset when it is, trimmed, three parts with a slash in front of each, and then the
parts make the dataset (`ofText_eq_ok_iff`). So names go from texts to datasets and back
(`naming_laws`).
-/

namespace MetadataCatalog

/-- The name of one part of a dataset. -/
def Dataset.name (d : Dataset) : DatasetPart → String
  | .experiment => d.experiment
  | .processing => d.processing
  | .tier => d.tier

namespace Dataset

/-! ## §1 Proper datasets -/

/-- Every part is trimmed, and it can be a part. -/
structure IsProper (d : Dataset) : Prop where
  trimmed : ∀ part, Text.trimChars (d.name part).toList = (d.name part).toList
  isPart : ∀ part, isPart (d.name part) = true

theorem isPart_iff {s : String} :
    isPart s = true ↔ Text.trimChars s.toList ≠ [] ∧ '/' ∉ s.toList := by
  rw [isPart, Text.isBlankText, Bool.and_eq_true, ne_eq, Text.trimChars_eq_nil_iff]
  simp

theorem isPart_trim {s : String} (h : isPart s = true) : isPart (Text.trim s) = true := by
  rw [isPart_iff] at h ⊢
  rw [Text.trim, String.toList_ofList, Text.trimChars_trimChars]
  exact ⟨h.1, fun hmem => h.2 ((Text.trimChars_infix _).mem hmem)⟩

theorem part_eq_ok_iff {which : DatasetPart} {s t : String} :
    part which s = .ok t ↔ isPart s = true ∧ t = Text.trim s := by
  unfold part
  by_cases h : isPart s = true
  · simp [h, eq_comm]
  · simp [h]

/-- Parts make a dataset if each of them can be one, and then the dataset has them trimmed. -/
theorem ofParts_eq_ok_iff {experiment processing tier : String} {d : Dataset} :
    ofParts experiment processing tier = .ok d ↔
      (isPart experiment = true ∧ isPart processing = true ∧ isPart tier = true) ∧
        d = ⟨Text.trim experiment, Text.trim processing, Text.trim tier⟩ := by
  unfold ofParts
  by_cases he : isPart experiment = true
  · rw [part_eq_ok_iff.mpr ⟨he, rfl⟩]
    by_cases hp : isPart processing = true
    · rw [part_eq_ok_iff.mpr ⟨hp, rfl⟩]
      by_cases ht : isPart tier = true
      · rw [part_eq_ok_iff.mpr ⟨ht, rfl⟩]
        simp [he, hp, ht, bind, Except.bind, eq_comm]
      · simp [part, ht, bind, Except.bind]
    · simp [part, hp, bind, Except.bind]
  · simp [part, he, bind, Except.bind]

theorem isProper_of_ofParts {experiment processing tier : String} {d : Dataset}
    (h : ofParts experiment processing tier = .ok d) : d.IsProper := by
  obtain ⟨⟨he, hp, ht⟩, rfl⟩ := ofParts_eq_ok_iff.mp h
  constructor
  · intro part
    cases part <;> simp only [name, Text.trim, String.toList_ofList, Text.trimChars_trimChars]
  · intro part
    cases part with
    | experiment => exact isPart_trim he
    | processing => exact isPart_trim hp
    | tier => exact isPart_trim ht

/-! ## §2 Written names -/

theorem toList_text (d : Dataset) :
    d.text.toList = '/' :: (d.experiment.toList ++ '/' ::
      (d.processing.toList ++ '/' :: d.tier.toList)) := by
  simp [text]

/-- Without slashes of their own, parts are cut at the slashes in front of them. -/
theorem cut_text_of_slash_not_mem {d : Dataset} (he : '/' ∉ d.experiment.toList)
    (hp : '/' ∉ d.processing.toList) (ht : '/' ∉ d.tier.toList) :
    Text.cut '/' d.text = ["", d.experiment, d.processing, d.tier] := by
  -- one piece in front of each slash but the first, before which there is nothing
  rw [Text.cut, toList_text, Text.pieces, if_pos rfl, Text.pieces_append he, Text.pieces_append hp,
    Text.pieces_of_not_mem ht]
  simp

/-- A text that is cut into nothing and three parts is the name written with them. -/
theorem eq_text_of_cut {s a b c : String} (h : Text.cut '/' s = ["", a, b, c]) :
    s = text ⟨a, b, c⟩ := by
  have hjoin := Text.join_cut '/' s
  rw [h] at hjoin
  rw [← hjoin, ← String.toList_inj, toList_text, Text.join]
  simp

namespace IsProper

variable {d : Dataset}

theorem trim_name (h : d.IsProper) (part : DatasetPart) :
    Text.trim (d.name part) = d.name part := by
  rw [Text.trim, h.trimmed, String.ofList_toList]

theorem toList_ne_nil (h : d.IsProper) (part : DatasetPart) : (d.name part).toList ≠ [] := by
  rw [← h.trimmed]
  exact (isPart_iff.mp (h.isPart part)).1

theorem slash_not_mem (h : d.IsProper) (part : DatasetPart) : '/' ∉ (d.name part).toList :=
  (isPart_iff.mp (h.isPart part)).2

/-- A written name begins with a slash and ends with the tier, so nothing is trimmed. -/
theorem trimChars_text (h : d.IsProper) : Text.trimChars d.text.toList = d.text.toList := by
  have htier := Text.trimChars_eq_self_iff.mp (h.trimmed .tier)
  obtain ⟨c, hc⟩ := Option.isSome_iff_exists.mp
    (List.getLast?_isSome.mpr (h.toList_ne_nil .tier))
  refine Text.trimChars_eq_self_iff.mpr ⟨fun c hhead => ?_, fun c' hlast => ?_⟩
  · -- the slash in front is no blank
    rw [toList_text, List.head?_cons, Option.some.injEq] at hhead
    subst hhead
    decide
  · have hlast' : d.text.toList.getLast? = some c := by
      rw [toList_text]
      simp only [name] at hc
      simp [List.getLast?_cons, List.getLast?_append, hc]
    have hcc : c' = c := Option.some.inj (hlast.symm.trans hlast')
    subst hcc
    exact htier.2 c' hc

theorem cut_text (h : d.IsProper) :
    Text.cut '/' d.text = ["", d.experiment, d.processing, d.tier] :=
  cut_text_of_slash_not_mem (h.slash_not_mem .experiment) (h.slash_not_mem .processing)
    (h.slash_not_mem .tier)

/-- **A written name names its dataset.** -/
theorem ofText_text (h : d.IsProper) : ofText d.text = .ok d := by
  have htrim : Text.trim d.text = d.text := by
    rw [Text.trim, h.trimChars_text, String.ofList_toList]
  have he := h.trim_name .experiment
  have hp := h.trim_name .processing
  have ht := h.trim_name .tier
  simp only [name] at he hp ht
  unfold ofText
  rw [htrim, h.cut_text]
  refine ofParts_eq_ok_iff.mpr ⟨⟨h.isPart .experiment, h.isPart .processing, h.isPart .tier⟩, ?_⟩
  rw [he, hp, ht]

end IsProper

/-! ## §3 Texts that name a dataset -/

/-- A text names a dataset if it is three parts, with a slash in front of each and blanks around it,
that make the dataset. -/
theorem ofText_eq_ok_iff {s : String} {d : Dataset} :
    ofText s = .ok d ↔ ∃ a b c, Text.trim s = text ⟨a, b, c⟩ ∧ ofParts a b c = .ok d := by
  constructor
  · intro h
    unfold ofText at h
    split at h
    · next a b c hcut => exact ⟨a, b, c, eq_text_of_cut hcut, h⟩
    · cases h
  · rintro ⟨a, b, c, htrim, hparts⟩
    obtain ⟨⟨ha, hb, hc⟩, -⟩ := ofParts_eq_ok_iff.mp hparts
    -- parts that make a dataset have no slashes, so the text is cut between them
    have hcut : Text.cut '/' (text ⟨a, b, c⟩) = ["", a, b, c] := by
      apply cut_text_of_slash_not_mem
      · exact (isPart_iff.mp ha).2
      · exact (isPart_iff.mp hb).2
      · exact (isPart_iff.mp hc).2
    unfold ofText
    rw [htrim, hcut]
    exact hparts

/-- A dataset that a text names or that is made out of parts. -/
def IsGiven (d : Dataset) : Prop :=
  (∃ s, ofText s = .ok d) ∨ ∃ a b c, ofParts a b c = .ok d

theorem IsGiven.isProper {d : Dataset} (h : d.IsGiven) : d.IsProper := by
  rcases h with ⟨s, hs⟩ | ⟨a, b, c, hparts⟩
  · obtain ⟨a, b, c, -, hparts⟩ := ofText_eq_ok_iff.mp hs
    exact isProper_of_ofParts hparts
  · exact isProper_of_ofParts hparts

/-- Different proper datasets have different names, since each is read back from its own. -/
theorem IsProper.eq_of_text_eq {d d' : Dataset} (h : d.IsProper) (h' : d'.IsProper)
    (htext : d.text = d'.text) : d = d' := by
  have hread := h.ofText_text
  rw [htext, h'.ofText_text] at hread
  exact (Except.ok.inj hread).symm

theorem ofParts_eq_ok_iff_forall {a b c : String} {d : Dataset} :
    ofParts a b c = .ok d ↔
      (∀ part ∈ [a, b, c], Text.isBlankText part = false ∧ '/' ∉ part.toList) ∧
        d = ⟨Text.trim a, Text.trim b, Text.trim c⟩ := by
  rw [ofParts_eq_ok_iff]
  simp [isPart]

/-- **Naming datasets.** A text names a dataset exactly when without the blanks around it it is
three parts, none blank or with a slash, and a slash in front of each; parts make a dataset exactly
when none is blank or has a slash; and both give the trimmed parts. The parts of every dataset given
in one of these ways are trimmed, not empty and without slashes, its written name names it, and no
other one has the same written name. -/
theorem naming_laws :
    (∀ s d, ofText s = .ok d ↔
      ∃ a b c, Text.trim s = "/" ++ a ++ "/" ++ b ++ "/" ++ c ∧
        (∀ part ∈ [a, b, c], Text.isBlankText part = false ∧ '/' ∉ part.toList) ∧
        d = ⟨Text.trim a, Text.trim b, Text.trim c⟩) ∧
    (∀ a b c d, ofParts a b c = .ok d ↔
      (∀ part ∈ [a, b, c], Text.isBlankText part = false ∧ '/' ∉ part.toList) ∧
        d = ⟨Text.trim a, Text.trim b, Text.trim c⟩) ∧
    ∀ d, d.IsGiven →
      (∀ which, Text.trim (d.name which) = d.name which ∧ d.name which ≠ "" ∧
        '/' ∉ (d.name which).toList) ∧
      ofText d.text = .ok d ∧ ∀ d', d'.IsGiven → d.text = d'.text → d = d' := by
  refine ⟨fun s d => ?_, fun a b c d => ofParts_eq_ok_iff_forall, fun d hd => ⟨fun which => ?_, ?_⟩⟩
  · rw [ofText_eq_ok_iff]
    simp only [ofParts_eq_ok_iff_forall, text]
  · have hne : d.name which ≠ "" := by
      intro hempty
      exact hd.isProper.toList_ne_nil which (by rw [hempty, String.toList_empty])
    exact ⟨hd.isProper.trim_name which, hne, hd.isProper.slash_not_mem which⟩
  · exact ⟨hd.isProper.ofText_text, fun d' hd' htext => hd.isProper.eq_of_text_eq hd'.isProper htext⟩

/-- Blanks around a name and around its parts, and one inside a part. -/
theorem naming_laws_blanks :
    ofText "\t/ beam line /raw / first " = .ok ⟨"beam line", "raw", "first"⟩ ∧
      ofText (text ⟨"beam line", "raw", "first"⟩) = .ok ⟨"beam line", "raw", "first"⟩ := by
  have hnamed : ofText "\t/ beam line /raw / first " = .ok ⟨"beam line", "raw", "first"⟩ := by
    apply (naming_laws.1 _ _).mpr
    exact ⟨" beam line ", "raw ", " first", by decide +kernel, by decide +kernel, by decide +kernel⟩
  exact ⟨hnamed, (naming_laws.2.2 _ (.inl ⟨_, hnamed⟩)).2.1⟩

end Dataset

end MetadataCatalog
