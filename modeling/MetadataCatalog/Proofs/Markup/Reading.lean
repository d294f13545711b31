import MetadataCatalog.Markup.Event

/-!
# Reading on

How the reader of marked-up texts goes on from a place. What it has read before makes no difference
to it: the events behind a place are the same whatever events stand before it (`after_behind`,
`finish?_behind`). In a text between two tags it takes down every character but an opening bracket
(`after_text`).
-/

namespace MetadataCatalog.Markup

/-! ## §1 Reading on -/

namespace State

/-- The reader behind further characters. -/
def after (s : State) (cs : List Char) : State := cs.foldl step s

@[simp]
theorem after_nil (s : State) : s.after [] = s := rfl

@[simp]
theorem after_cons (s : State) (c : Char) (cs : List Char) :
    s.after (c :: cs) = (step s c).after cs := rfl

theorem after_append (s : State) (cs ds : List Char) :
    s.after (cs ++ ds) = (s.after cs).after ds := List.foldl_append

/-- Characters that are only taken down, in whatever mode, are what has then been read. -/
theorem after_takenDown (mode : List Char → Mode) {names : List String} {events : List Event}
    {cs : List Char} (h : ∀ c ∈ cs, ∀ read,
      step ⟨mode read, names, events⟩ c = ⟨mode (c :: read), names, events⟩) (read : List Char) :
    State.after ⟨mode read, names, events⟩ cs = ⟨mode (cs.reverse ++ read), names, events⟩ := by
  induction cs generalizing read with
  | nil => rfl
  | cons c cs ih =>
    rw [after_cons, h c List.mem_cons_self, ih fun d hd => h d (List.mem_cons_of_mem c hd)]
    simp

end State

/-! ## §2 What has been read before -/

namespace State

/-- The reader as it is when other events have been read before. -/
def behind (s : State) (earlier : List Event) : State :=
  { s with events := s.events ++ earlier }

variable (s : State) (earlier : List Event)

theorem emit_behind (event : Event) : (s.behind earlier).emit event = (s.emit event).behind earlier :=
  rfl

theorem fail_behind : (s.behind earlier).fail = s.fail.behind earlier := rfl

theorem emitText_behind (read : List Char) :
    (s.behind earlier).emitText read = (s.emitText read).behind earlier := by
  unfold emitText
  split <;> rfl

theorem finishTag_behind (read : List Char) :
    finishTag (s.behind earlier) read = (finishTag s read).behind earlier := by
  unfold finishTag
  split <;> rfl

theorem finishEndTag_behind (read : List Char) :
    finishEndTag (s.behind earlier) read = (finishEndTag s read).behind earlier := by
  unfold finishEndTag
  rw [show (s.behind earlier).openNames = s.openNames from rfl]
  cases hnames : s.openNames with
  | nil => rfl
  | cons expected rest =>
    dsimp only
    rw [apply_ite (behind · earlier)]
    rfl

theorem finishInstruction_behind (read : List Char) :
    finishInstruction (s.behind earlier) read = (finishInstruction s read).behind earlier := by
  unfold finishInstruction
  split <;> rfl

theorem finishDeclaration?_behind (read : List Char) :
    finishDeclaration? (s.behind earlier) read =
      (finishDeclaration? s read).map (·.behind earlier) := by
  unfold finishDeclaration?
  simp only [emit_behind, fail_behind]
  split <;> split <;> simp only [Option.map_some, Option.map_none] <;> split <;> rfl

/-- Every character is read alike whatever events have been read before. -/
theorem step_behind (c : Char) : step (s.behind earlier) c = (step s c).behind earlier := by
  have hmode : (s.behind earlier).mode = s.mode := rfl
  fun_cases step s c
  case case20 read _ _ more hc =>
    -- the declaration ends here, or it goes on
    subst hc
    simp only [step, *, if_true, finishDeclaration?_behind]
    cases finishDeclaration? s read <;> rfl
  all_goals
    simp only [step, *, if_true, if_false, emitText_behind, fail_behind, finishTag_behind,
      finishEndTag_behind, finishInstruction_behind]
  all_goals rfl

theorem after_behind (cs : List Char) :
    (s.behind earlier).after cs = (s.after cs).behind earlier := by
  induction cs generalizing s with
  | nil => rfl
  | cons c cs ih => rw [after_cons, after_cons, step_behind, ih]

/-- Where the text ends, the events that have been read before come first. -/
theorem finish?_behind : finish? (s.behind earlier) = (finish? s).map (earlier.reverse ++ ·) := by
  have hdone : ∀ done : State, (if (done.behind earlier).mode = .failed then none
      else some (done.behind earlier).events.reverse) =
      (if done.mode = .failed then none else some done.events.reverse).map
        (earlier.reverse ++ ·) := by
    intro done
    rw [apply_ite (Option.map _)]
    simp [behind]
  have hmode : (s.behind earlier).mode = s.mode := rfl
  unfold finish?
  rw [hmode, ← hdone]
  cases s.mode <;>
    simp only [emitText_behind, finishEndTag_behind, finishInstruction_behind, fail_behind] <;> rfl

end State

/-! ## §3 Texts between tags -/

/-- The reader in a text between tags, of which it has read some characters. -/
def between (read : List Char) (openNames : List String) (events : List Event) : State :=
  ⟨.text read, openNames, events⟩

/-- The events when the text that has been read ends here. -/
def withText (read : List Char) (events : List Event) : List Event :=
  if read = [] then events else .text read.reverse :: events

@[simp]
theorem withText_nil (events : List Event) : withText [] events = events := rfl

variable {read : List Char} {names : List String} {events : List Event}

/-- An opening bracket ends a text. -/
theorem step_between_angle (read : List Char) (names : List String) (events : List Event) :
    step (between read names events) '<' = ⟨.angle, names, withText read events⟩ := by
  by_cases hread : read = [] <;>
    simp [step, between, State.emitText, State.emit, withText, hread]

/-- Every other character goes into it. -/
theorem step_between {c : Char} (h : c ≠ '<') :
    step (between read names events) c = between (c :: read) names events := by
  simp [step, between, h]

theorem after_text {cs : List Char} (h : '<' ∉ cs) :
    (between read names events).after cs = between (cs.reverse ++ read) names events :=
  State.after_takenDown .text
    (fun _ hc _ => step_between (ne_of_mem_of_not_mem hc h)) read

/-! ## §4 The whole text -/

/-- Characters without a byte order mark in front of them. -/
def unmarked (cs : List Char) : List Char :=
  ([Char.ofNat 0xFEFF].isPrefixOf? cs).getD cs

theorem unmarked_cons (c : Char) (cs : List Char) :
    unmarked (c :: cs) = if c = Char.ofNat 0xFEFF then cs else c :: cs := by
  show (if Char.ofNat 0xFEFF == c then some cs else none).getD (c :: cs) = _
  by_cases hc : c = Char.ofNat 0xFEFF
  · simp [hc]
  · simp [hc, Ne.symm hc]

theorem events?_eq (cs : List Char) : events? cs = finish? (State.start.after (unmarked cs)) := rfl

theorem finish?_between (read : List Char) (names : List String) (events : List Event) :
    finish? (between read names events) = some (withText read events).reverse := by
  unfold finish? between State.emitText withText
  by_cases hread : read = [] <;> simp [hread, State.emit]

end MetadataCatalog.Markup
