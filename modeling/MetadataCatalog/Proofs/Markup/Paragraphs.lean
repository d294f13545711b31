import MetadataCatalog.Proofs.Markup.Escapes
import MetadataCatalog.Proofs.Markup.Layouts
import MetadataCatalog.Proofs.Markup.Shown

/-!
# Paragraphs

The text of a document comes back from it. Paragraphs are lists of pieces, which are texts, tabs and
line breaks; they are written as elements, with any comments, texts and elements of other names
between them and around them (`IsBody`). The document then has the text of the paragraphs, each on a
line (`text_of_body`).
-/

namespace MetadataCatalog.DocumentText

open Markup

/-! ## §1 Paragraphs and how they are written -/

/-- A piece of a paragraph. -/
inductive Piece where
  | text (s : String)
  | tab
  | lineBreak
  deriving DecidableEq, Repr

/-- The text that a piece stands for. -/
def Piece.shows : Piece → List Char
  | .text s => s.toList
  | .tab => ['\t']
  | .lineBreak => ['\n']

/-- The text of a paragraph. -/
def paragraphText (pieces : List Piece) : String := String.ofList (pieces.flatMap Piece.shows)

/-- The names of the elements that paragraphs and their pieces are written as. -/
def pieceNames : List String := ["w:p", "w:t", "w:tab", "w:br", "w:cr"]

/-- Whether an element of the given name is none of them. -/
def IsOther (name : String) : Prop := name ∉ pieceNames

instance : DecidablePred IsOther := fun name => inferInstanceAs (Decidable (name ∉ pieceNames))

/-- What a piece is written as. -/
inductive Piece.IsWritten : Piece → List Char → Prop where
  /-- A text is the content of a text element, escaped. -/
  | text {s : String} {attributes written blanks : List Char} (hattributes : Attributes attributes)
      (hwritten : Escaped written s.toList) (hblanks : areTagBlanks blanks = true) :
      Piece.IsWritten (.text s) (startTag "w:t" attributes ++ written ++ endTag "w:t" blanks)
  /-- A tab is an element without content. -/
  | tab {attributes : List Char} (hattributes : Attributes attributes) :
      Piece.IsWritten .tab (emptyTag "w:tab" attributes)
  /-- There are two elements for a line break. -/
  | lineBreak {name : String} {attributes : List Char} (hname : name = "w:br" ∨ name = "w:cr")
      (hattributes : Attributes attributes) :
      Piece.IsWritten .lineBreak (emptyTag name attributes)

/-- What a paragraph is written as. -/
inductive ParagraphIsWritten : List Piece → List Char → Prop where
  | element {pieces : List Piece} {attributes content blanks : List Char}
      (hattributes : Attributes attributes) (hcontent : Laid IsOther Piece.IsWritten pieces content)
      (hblanks : areTagBlanks blanks = true) :
      ParagraphIsWritten pieces (startTag "w:p" attributes ++ content ++ endTag "w:p" blanks)

/-- A document body in which paragraphs are written one after the other. -/
def IsBody (paragraphs : List (List Piece)) (body : List Char) : Prop :=
  Laid IsOther ParagraphIsWritten paragraphs body

/-! ## §2 What events have shown -/

/-- What events, the latest first, show, and whether a text element is open behind them. -/
def HaveShown (events : List Event) (inText : Bool) (cs : List Char) : Prop :=
  allShown? false events.reverse = some cs ∧ textOpen false events.reverse = inText

variable {events : List Event} {inText : Bool} {cs ds : List Char}

theorem HaveShown.cons (h : HaveShown events inText cs) (event : Event)
    (hevent : shown? inText event = some ds) :
    HaveShown (event :: events) (opens inText event) (cs ++ ds) := by
  obtain ⟨hshown, hopen⟩ := h
  constructor
  · simp [allShown?_append, hshown, hopen, allShown?, hevent]
  · rw [List.reverse_cons, textOpen_append, hopen]
    rfl

/-- A text outside of text elements does not show. -/
theorem HaveShown.withText (h : HaveShown events false cs) (read : List Char) :
    HaveShown (withText read events) false cs := by
  unfold Markup.withText
  split
  · exact h
  · rw [← List.append_nil cs]
    exact h.cons (.text read.reverse) rfl

/-- A text inside shows, and its entities are replaced. -/
theorem HaveShown.withText_open (h : HaveShown events true cs) {read : List Char}
    (hread : unescape? read.reverse = some ds) :
    HaveShown (Markup.withText read events) true (cs ++ ds) := by
  unfold Markup.withText
  split
  · next hnil =>
    obtain rfl : ds = [] := by
      rw [hnil, List.reverse_nil, unescape?] at hread
      exact (Option.some.inj hread).symm
    rwa [List.append_nil]
  · exact h.cons (.text read.reverse) hread

/-! ## §3 The reader outside of text elements -/

/-- The reader stands in a text between tags, outside of text elements. -/
def Stands (s : Markup.State) (names : List String) (cs : List Char) : Prop :=
  ∃ read events, s = between read names events ∧ HaveShown events false cs

variable {s : Markup.State} {names : List String}

/-- A tag or aside shows its mark. -/
theorem Stands.event (h : Stands s names cs) {tag : List Char} {event : Event}
    {names' : List String}
    (hread : ∀ read events, (between read names events).after tag =
      between [] names' (event :: Markup.withText read events))
    (hnot : ∀ written, event ≠ .text written) (hopens : opens false event = false) :
    Stands (s.after tag) names' (cs ++ mark event) := by
  obtain ⟨read, events, rfl, hshown⟩ := h
  have hevent : shown? false event = some (mark event) := shown?_of_not_text (.inr hnot)
  refine ⟨[], event :: Markup.withText read events, hread read events, ?_⟩
  rw [← hopens]
  exact (hshown.withText read).cons event hevent

theorem opens_opening {name : String} (h : name ≠ "w:t") (inText : Bool) :
    opens inText (.opening name) = inText :=
  opens_of_not_isTextTag (by simp [isTextTag, h]) inText

theorem opens_closing {name : String} (h : name ≠ "w:t") (inText : Bool) :
    opens inText (.closing name) = inText :=
  opens_of_not_isTextTag (by simp [isTextTag, h]) inText

theorem mark_empty_of_isOther {name : String} (h : IsOther name) : mark (.empty name) = [] := by
  unfold mark
  split
  · next heq => exact absurd (Event.empty.inj heq ▸ h) (by decide)
  · next heq => exact absurd (Event.empty.inj heq ▸ h) (by decide)
  · next heq => exact absurd (Event.empty.inj heq ▸ h) (by decide)
  · next heq => cases heq
  · rfl

theorem mark_closing {name : String} (h : name ≠ "w:p") : mark (.closing name) = [] := by
  unfold mark
  split
  · next heq => cases heq
  · next heq => cases heq
  · next heq => cases heq
  · next heq => exact absurd (Event.closing.inj heq) h
  · rfl

theorem IsOther.ne {name : String} (h : IsOther name) :
    name ≠ "w:t" ∧ name ≠ "w:p" := by
  constructor <;> rintro rfl <;> exact absurd h (by decide)

variable {name : String} {attributes blanks : List Char}

theorem Stands.character {c : Char} (h : Stands s names cs) (hc : c ≠ '<') :
    Stands (s.after [c]) names cs := by
  obtain ⟨read, events, rfl, hshown⟩ := h
  exact ⟨c :: read, events, step_between hc, hshown⟩

theorem Stands.opening (h : Stands s names cs) (hname : IsName name) (hne : name ≠ "w:t")
    (hattributes : Attributes attributes) :
    Stands (s.after (startTag name attributes)) (name :: names) cs := by
  have hmark : mark (.opening name) = [] := rfl
  have hafter :=
    h.event (fun _ _ => after_startTag hname hattributes) nofun (opens_opening hne false)
  rwa [hmark, List.append_nil] at hafter

theorem Stands.closing (h : Stands s (name :: names) cs) (hname : IsName name)
    (hne : name ≠ "w:t") (hblanks : areTagBlanks blanks = true) :
    Stands (s.after (endTag name blanks)) names (cs ++ mark (.closing name)) :=
  h.event (fun _ _ => after_endTag hname hblanks) nofun (opens_closing hne false)

theorem Stands.empty (h : Stands s names cs) (hname : IsName name)
    (hattributes : Attributes attributes) :
    Stands (s.after (emptyTag name attributes)) names (cs ++ mark (.empty name)) :=
  h.event (fun _ _ => after_emptyTag hname hattributes) nofun rfl

/-- Where items are laid out among other elements, they alone show. -/
theorem Stands.laid {α : Type} {Unit : α → List Char → Prop} {shows : α → List Char}
    (hunit : ∀ a written, Unit a written → ∀ {s names cs}, Stands s names cs →
      Stands (s.after written) names (cs ++ shows a))
    {items : List α} {layout : List Char} (h : Laid IsOther Unit items layout)
    (hs : Stands s names cs) : Stands (s.after layout) names (cs ++ items.flatMap shows) := by
  induction h generalizing s names cs with
  | nil => simpa using hs
  | text hc _ ih => exact ih (hs.character hc)
  | aside ha _ ih =>
    rw [Markup.State.after_append]
    have hafter := hs.event (fun _ _ => after_aside ha) nofun rfl
    rw [show mark .aside = [] from rfl, List.append_nil] at hafter
    exact ih hafter
  | empty hname hother hattributes _ ih =>
    rw [Markup.State.after_append]
    have hafter := hs.empty hname hattributes
    rw [mark_empty_of_isOther hother, List.append_nil] at hafter
    exact ih hafter
  | @element name _ _ inner items _ _ hname hother hattributes hblanks _ _ ihcontent ih =>
    have hinside := ihcontent (hs.opening hname hother.ne.1 hattributes)
    have hafter := hinside.closing hname hother.ne.1 hblanks
    rw [mark_closing hother.ne.2, List.append_nil] at hafter
    rw [Markup.State.after_append, Markup.State.after_append, Markup.State.after_append,
      List.flatMap_append, ← List.append_assoc]
    exact ih hafter
  | unit ha _ ih =>
    rw [Markup.State.after_append, List.flatMap_cons, ← List.append_assoc]
    exact ih (hunit _ _ ha hs)

/-- Each piece shows what it stands for. -/
theorem Stands.piece {piece : Piece} {written : List Char} (h : piece.IsWritten written)
    (hs : Stands s names cs) : Stands (s.after written) names (cs ++ piece.shows) := by
  cases h with
  | @text text attributes written blanks hattributes hwritten hblanks =>
    have hname : IsName "w:t" := by decide
    obtain ⟨read, events, rfl, hshown⟩ := hs
    have hopened : HaveShown (.opening "w:t" :: Markup.withText read events) true cs := by
      rw [← List.append_nil cs]
      exact (hshown.withText read).cons (.opening "w:t") rfl
    have hread : unescape? (written.reverse ++ []).reverse = some text.toList := by
      simpa using hwritten.unescape?_eq
    have hclosed := (hopened.withText_open hread).cons (.closing "w:t")
      (show shown? true (.closing "w:t") = some [] from rfl)
    rw [List.append_nil (cs ++ text.toList)] at hclosed
    refine ⟨[], _, ?_, hclosed⟩
    rw [Markup.State.after_append, Markup.State.after_append, after_startTag hname hattributes,
      after_text hwritten.angle_not_mem, after_endTag hname hblanks]
  | tab hattributes => exact hs.empty (by decide) hattributes
  | lineBreak hname hattributes =>
    rcases hname with rfl | rfl <;> exact hs.empty (by decide) hattributes

/-- Each paragraph shows what its pieces show, and a line feed. -/
theorem Stands.paragraph {pieces : List Piece} {written : List Char}
    (h : ParagraphIsWritten pieces written) (hs : Stands s names cs) :
    Stands (s.after written) names (cs ++ (pieces.flatMap Piece.shows ++ ['\n'])) := by
  cases h with
  | element hattributes hcontent hblanks =>
    have hname : IsName "w:p" := by decide
    have hne : "w:p" ≠ "w:t" := by decide
    have hinside := (hs.opening hname hne hattributes).laid
      (fun _ _ h => Stands.piece h) hcontent
    rw [Markup.State.after_append, Markup.State.after_append, ← List.append_assoc]
    exact hinside.closing hname hne hblanks

/-! ## §4 Documents -/

theorem ParagraphIsWritten.begins {pieces : List Piece} {written : List Char}
    (h : ParagraphIsWritten pieces written) : ∃ rest, written = '<' :: rest := by
  cases h
  exact ⟨_, rfl⟩

theorem stands_start : Stands .start [] [] := ⟨[], [], rfl, rfl, rfl⟩

/-- Where the document ends, the reader has read its events. -/
theorem Stands.finish (h : Stands s names cs) :
    (finish? s).bind (allShown? false) = some cs := by
  obtain ⟨read, events, rfl, hshown⟩ := h
  rw [finish?_between]
  exact (hshown.withText read).1

/-- The document in which paragraphs are written shows them one after the other. -/
theorem shown_of_isBody {paragraphs : List (List Piece)} {body : List Char}
    (h : IsBody paragraphs body) : (events? body).bind (allShown? false) =
      some (paragraphs.flatMap fun pieces => pieces.flatMap Piece.shows ++ ['\n']) := by
  have hbody : Laid IsOther ParagraphIsWritten paragraphs (unmarked body) :=
    h.unmarked fun _ _ ha => ha.begins
  have hstands := stands_start.laid (fun _ _ ha => Stands.paragraph ha) hbody
  rw [events?_eq, hstands.finish, List.nil_append]

/-- Every piece and so every list of paragraphs can be written. -/
theorem exists_isBody (paragraphs : List (List Piece)) : ∃ body, IsBody paragraphs body := by
  have hblank : areTagBlanks [] = true := rfl
  have hpiece : ∀ piece : Piece, ∃ written, piece.IsWritten written := by
    intro piece
    cases piece with
    | text s =>
      obtain ⟨written, hwritten⟩ := exists_escaped s.toList
      exact ⟨_, .text (.blanks hblank) hwritten hblank⟩
    | tab => exact ⟨_, .tab (.blanks hblank)⟩
    | lineBreak => exact ⟨_, .lineBreak (.inl rfl) (.blanks hblank)⟩
  have hparagraph : ∀ pieces : List Piece, ∃ written, ParagraphIsWritten pieces written := by
    intro pieces
    obtain ⟨content, hcontent⟩ := exists_laid IsOther hpiece pieces
    exact ⟨_, .element (.blanks hblank) hcontent hblank⟩
  exact exists_laid IsOther hparagraph paragraphs

/-- Paragraphs can be written as a document, and the text of every document in which they are written
is their text, each on a line, without the blanks at the ends. -/
theorem text_of_body (paragraphs : List (List Piece)) :
    (∃ body : String, IsBody paragraphs body.toList) ∧
      ∀ body : String, IsBody paragraphs body.toList →
        ofBody body = .ok (Text.trim (Text.join "\n" (paragraphs.map paragraphText))) := by
  constructor
  · obtain ⟨body, hbody⟩ := exists_isBody paragraphs
    exact ⟨String.ofList body, by rwa [String.toList_ofList]⟩
  · intro body hbody
    have hlines : (paragraphs.map paragraphText).map String.toList =
        paragraphs.map (·.flatMap Piece.shows) := by
      rw [List.map_map]
      exact List.map_congr_left fun pieces _ => String.toList_ofList
    rw [ofBody_eq, shown_of_isBody hbody, Text.trim, Text.join, String.toList_intercalate, hlines]
    dsimp only
    rw [show "\n".toList = ['\n'] from rfl, trimChars_intercalate, List.flatMap_map]

/-- Three paragraphs, one of them blank. -/
def sampleParagraphs : List (List Piece) := [[.text "<"], [], [.text "b", .tab]]

/-- A document in which they are written. -/
def sampleBody : String :=
  "<w:body> <w:p><w:r w:id='a>b'><w:t>&lt;</w:t></w:r><!-- x --></w:p><w:p></w:p>" ++
    "<w:p><w:t>b</w:t><w:tab/></w:p></w:body>"

theorem isBody_sample : IsBody sampleParagraphs sampleBody.toList := by
  have hnone : Attributes [] := .blanks rfl
  have hblank : areTagBlanks [] = true := rfl
  have hvalue : Attributes ([' '] ++ "w:id".toList ++ [] ++ '=' :: [] ++ '\'' :: "a>b".toList ++
      '\'' :: []) :=
    .valued rfl (by decide) (by decide) rfl rfl (.inr rfl) (by decide) hnone
  have hbracket : Piece.IsWritten (.text "<")
      (startTag "w:t" [] ++ ('&' :: "lt".toList ++ ';' :: []) ++ endTag "w:t" []) :=
    .text hnone (.entity .lt .nil) hblank
  have hletter : Piece.IsWritten (.text "b") (startTag "w:t" [] ++ ['b'] ++ endTag "w:t" []) :=
    .text hnone (.plain (by decide) .nil) hblank
  have hcomment : IsAside ("<!--".toList ++ " x ".toList ++ "-->".toList) :=
    .comment (by decide +kernel)
  have hrun : IsName "w:r" ∧ IsOther "w:r" := by decide
  have hroot : IsName "w:body" ∧ IsOther "w:body" := by decide
  have hspace : ' ' ≠ '<' := by decide
  have hfirst : Laid IsOther Piece.IsWritten _ _ :=
    .element hrun.1 hrun.2 hvalue hblank (.unit hbracket .nil) (.aside hcomment .nil)
  have hthird : Laid IsOther Piece.IsWritten _ _ := .unit hletter (.unit (.tab hnone) .nil)
  have hparagraphs : Laid IsOther ParagraphIsWritten sampleParagraphs _ :=
    .unit (.element hnone hfirst hblank)
      (.unit (.element hnone .nil hblank) (.unit (.element hnone hthird hblank) .nil))
  have hbody : Laid IsOther ParagraphIsWritten (sampleParagraphs ++ []) _ :=
    .element hroot.1 hroot.2 hnone hblank (.text hspace hparagraphs) .nil
  exact Eq.mp (congrArg (IsBody sampleParagraphs) (by decide +kernel)) hbody

theorem text_of_body_sample : IsBody sampleParagraphs sampleBody.toList ∧
    ofBody sampleBody = .ok "<\n\nb" :=
  ⟨isBody_sample, ((text_of_body sampleParagraphs).2 sampleBody isBody_sample).trans
    (by decide +kernel)⟩

end MetadataCatalog.DocumentText
