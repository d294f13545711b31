import MetadataCatalog.Json.Printer
import MetadataCatalog.Json.Reader
import MetadataCatalog.Proofs.Json.Numerals

/-!
# What is written is read back

A value is `Plain` when it has no doubles, its integers fit into 64 bits, no object has a name twice
and it is not nested too deep. Whatever style of blanks a plain value is written in, the reader gets
the same value from the text (`Reader.read?_write`).

The reader is followed through the text part by part. Behind a value it has delivered the value to
the innermost open container, with one exception: it does not know yet that a number has ended. So
what it has read is stated as `Reader.HasRead`, and the next character makes the two cases one.
-/

namespace MetadataCatalog.Json

/-! ## §1 Plain values -/

/-- A value without doubles that nests at most so deep. Its integers fit into 64 bits, and no object
in it has a name twice. -/
inductive Plain : Nat → Json → Prop
  /-- Null does not nest. -/
  | null {n : Nat} : Plain n .null
  /-- Neither does a truth value. -/
  | boolean {n : Nat} (b : Bool) : Plain n (.boolean b)
  /-- An integer, signed or unsigned. -/
  | integer {n : Nat} {i : Int} (h : Numeral.Fits i) : Plain n (.integer i)
  /-- Any text. -/
  | text {n : Nat} (s : String) : Plain n (.text s)
  /-- A list is one level above its items. -/
  | list {n : Nat} {items : List Json} (h : ∀ v ∈ items, Plain n v) : Plain (n + 1) (.list items)
  /-- An object is one level above its values. -/
  | object {n : Nat} {entries : List (String × Json)} (hnames : (Entries.names entries).Nodup)
      (h : ∀ e ∈ entries, Plain n e.2) : Plain (n + 1) (.object entries)

/-- A plain value may be counted as deeper than it is. -/
theorem Plain.mono {n m : Nat} {v : Json} (h : Plain n v) (hle : n ≤ m) : Plain m v := by
  induction h generalizing m with
  | null => exact .null
  | boolean b => exact .boolean b
  | integer h => exact .integer h
  | text s => exact .text s
  | list h ih =>
    obtain ⟨k, rfl⟩ : ∃ k, m = k + 1 := ⟨m - 1, by omega⟩
    exact .list fun v hv => ih v hv (by omega)
  | object hnames h ih =>
    obtain ⟨k, rfl⟩ : ∃ k, m = k + 1 := ⟨m - 1, by omega⟩
    exact .object hnames fun e he => ih e he (by omega)

/-- A style that puts nothing but blanks between the parts. -/
structure Style.Blank (style : Style) : Prop where
  newline : ∀ depth, ∀ c ∈ style.newline depth, Reader.isSpace c = true
  afterColon : ∀ c ∈ style.afterColon, Reader.isSpace c = true

theorem Style.blank_compact : Style.compact.Blank where
  newline _ _ h := absurd h List.not_mem_nil
  afterColon _ h := absurd h List.not_mem_nil

theorem Style.blank_indented (width : Nat) : (Style.indented width).Blank where
  newline depth c h := by
    rw [Style.indented, List.mem_cons, List.mem_replicate] at h
    rcases h with rfl | ⟨-, rfl⟩ <;> rfl
  afterColon c h := by
    rw [Style.indented, List.mem_singleton] at h
    rw [h]
    rfl

namespace Reader

variable {rules : Rules} {style : Style}

/-! ## §2 The machine on a part of a text -/

/-- The machine behind a part of a text. -/
def readOn (rules : Rules) (state : State) (cs : List Char) : State :=
  cs.foldl (step rules) state

@[simp] theorem readOn_nil (s : State) : readOn rules s [] = s := rfl

@[simp] theorem readOn_cons (s : State) (c : Char) (cs : List Char) :
    readOn rules s (c :: cs) = readOn rules (step rules s c) cs := rfl

@[simp] theorem readOn_append (s : State) (cs ds : List Char) :
    readOn rules s (cs ++ ds) = readOn rules (readOn rules s cs) ds :=
  List.foldl_append

/-- The modes in which blanks are passed over. -/
inductive Mode.PassesBlanks : Mode → Prop
  | value : PassesBlanks .value
  | firstItem : PassesBlanks .firstItem
  | firstName : PassesBlanks .firstName
  | name : PassesBlanks .name
  | colon : PassesBlanks .colon
  | next : PassesBlanks .next

theorem step_of_isSpace {mode : Mode} {frames : List Frame} {result : Option Json} {c : Char}
    (hmode : mode.PassesBlanks) (hc : isSpace c = true) :
    step rules ⟨mode, frames, result⟩ c = ⟨mode, frames, result⟩ := by
  cases hmode <;> simp only [step, afterValue, hc, if_true]

theorem readOn_blanks {mode : Mode} {frames : List Frame} {result : Option Json} {cs : List Char}
    (hmode : mode.PassesBlanks) (hcs : ∀ c ∈ cs, isSpace c = true) :
    readOn rules ⟨mode, frames, result⟩ cs = ⟨mode, frames, result⟩ := by
  induction cs with
  | nil => rfl
  | cons c cs ih =>
    rw [readOn_cons, step_of_isSpace hmode (hcs c List.mem_cons_self)]
    exact ih fun d hd => hcs d (List.mem_cons_of_mem c hd)

/-! ## §3 Texts between quotes -/

theorem eq_ofNat {c : Char} {code : Nat} (h : c.toNat = code) : c = Char.ofNat code := by
  rw [← h, Char.ofNat_toNat]

/-- A code far below the surrogates is a character in any case. -/
theorem finishCode_of_lt (lenient isName : Bool) (read : List Char) {code : Nat}
    (h : code < 32) :
    finishCode lenient isName read none code = some (.string isName (Char.ofNat code :: read)) := by
  have hhigh : ¬ 0xD800 ≤ code := by omega
  have hlow : ¬ 0xDC00 ≤ code := by omega
  unfold finishCode
  cases lenient <;> simp [hhigh, hlow]

/-- The four digits for a control are read as its code. -/
theorem readOn_controlCode (isName : Bool) (read : List Char) (frames : List Frame) {c : Char}
    (h : c.toNat < 32) :
    readOn rules ⟨.string isName read, frames, none⟩
        ['\\', 'u', '0', '0', Text.hexDigit (c.toNat / 16), Text.hexDigit (c.toNat % 16)] =
      ⟨.string isName (c :: read), frames, none⟩ := by
  have hzero : Text.hexValue? '0' = some 0 := rfl
  have hfirst : Text.hexValue? (Text.hexDigit (c.toNat / 16)) = some (c.toNat / 16) :=
    Text.hexValue?_hexDigit (by omega)
  have hsecond : Text.hexValue? (Text.hexDigit (c.toNat % 16)) = some (c.toNat % 16) :=
    Text.hexValue?_hexDigit (by omega)
  have hcode : 16 * (16 * (16 * (16 * 0 + 0) + 0) + c.toNat / 16) + c.toNat % 16 = c.toNat := by
    omega
  have hescape : readOn rules ⟨.string isName read, frames, none⟩ ['\\', 'u'] =
      ⟨.code isName read none 0 0, frames, none⟩ := rfl
  have hdigits : readOn rules ⟨.code isName read none 0 0, frames, none⟩
      ['0', '0', Text.hexDigit (c.toNat / 16)] =
        ⟨.code isName read none 3 (16 * (16 * (16 * 0 + 0) + 0) + c.toNat / 16), frames, none⟩ := by
    simp [step, hzero, hfirst]
  have hlast : step rules
      ⟨.code isName read none 3 (16 * (16 * (16 * 0 + 0) + 0) + c.toNat / 16), frames, none⟩
      (Text.hexDigit (c.toNat % 16)) = ⟨.string isName (c :: read), frames, none⟩ := by
    simp only [step, hsecond, hcode, finishCode_of_lt _ _ _ h, Char.ofNat_toNat]
    rfl
  calc readOn rules ⟨.string isName read, frames, none⟩
        ['\\', 'u', '0', '0', Text.hexDigit (c.toNat / 16), Text.hexDigit (c.toNat % 16)]
      = step rules (readOn rules (readOn rules ⟨.string isName read, frames, none⟩ ['\\', 'u'])
          ['0', '0', Text.hexDigit (c.toNat / 16)]) (Text.hexDigit (c.toNat % 16)) := rfl
    _ = ⟨.string isName (c :: read), frames, none⟩ := by rw [hescape, hdigits, hlast]

/-- A character between quotes is read back from what stands for it. -/
theorem readOn_escapeChar (isName : Bool) (read : List Char) (frames : List Frame) (c : Char) :
    readOn rules ⟨.string isName read, frames, none⟩ (escapeChar c) =
      ⟨.string isName (c :: read), frames, none⟩ := by
  unfold escapeChar
  split_ifs with hquote hbackslash h8 h9 h10 h12 h13 hcontrol
  · rw [hquote]
    rfl
  · rw [hbackslash]
    rfl
  · rw [eq_ofNat h8]
    rfl
  · rw [eq_ofNat h9]
    rfl
  · rw [eq_ofNat h10]
    rfl
  · rw [eq_ofNat h12]
    rfl
  · rw [eq_ofNat h13]
    rfl
  · exact readOn_controlCode isName read frames hcontrol
  · rw [readOn_cons, readOn_nil]
    simp only [step, stepString, if_neg hquote, if_neg hbackslash, if_neg hcontrol]

theorem readOn_flatMap_escapeChar (isName : Bool) (read : List Char) (frames : List Frame)
    (cs : List Char) :
    readOn rules ⟨.string isName read, frames, none⟩ (cs.flatMap escapeChar) =
      ⟨.string isName (cs.reverse ++ read), frames, none⟩ := by
  induction cs generalizing read with
  | nil => rfl
  | cons c cs ih =>
    rw [List.flatMap_cons, readOn_append, readOn_escapeChar, ih, List.reverse_cons,
      List.append_assoc, List.singleton_append]

/-- A text is read up to its closing quote. -/
theorem readOn_quoted (isName : Bool) (frames : List Frame) (s : String) :
    readOn rules ⟨.string isName [], frames, none⟩ (s.toList.flatMap escapeChar ++ ['"']) =
      deliverText isName s.toList.reverse frames := by
  rw [readOn_append, readOn_flatMap_escapeChar, List.append_nil]
  rfl

/-! ## §4 Values -/

/-- The machine has read a value: it has handed it over, or it has read a number that may go on. -/
inductive HasRead (rules : Rules) (v : Json) (frames : List Frame) : State → Prop
  /-- The value is in the innermost container. -/
  | delivered : HasRead rules v frames (deliver v frames)
  /-- The next character tells that the number is complete. -/
  | number {read : List Char} (h : deliverNumber rules read frames = deliver v frames) :
      HasRead rules v frames ⟨.number read, frames, none⟩

/-- The characters that a numeral is made of. -/
def IsNumeral (c : Char) : Prop :=
  Decimal.isDigit c ∨ c = '-' ∨ c = '+' ∨ c = '.' ∨ c = 'e' ∨ c = 'E'

instance (c : Char) : Decidable (IsNumeral c) := inferInstanceAs (Decidable (_ ∨ _))

theorem not_isNumeral_of_isSpace {c : Char} (h : isSpace c = true) : ¬ IsNumeral c := by
  simp only [isSpace, Bool.or_eq_true, beq_iff_eq] at h
  rcases h with ((rfl | rfl) | rfl) | rfl <;> simp [IsNumeral] <;> decide

theorem deliver_eq (v : Json) (frames : List Frame) :
    ∃ opened result, deliver v frames = ⟨.next, opened, result⟩ := by
  cases frames with
  | nil => exact ⟨_, _, rfl⟩
  | cons frame frames => cases frame <;> exact ⟨_, _, rfl⟩

/-- The character behind a value makes no difference between a number and any other value. -/
theorem HasRead.step_eq {v : Json} {frames : List Frame} {s : State} {c : Char}
    (h : HasRead rules v frames s) (hc : ¬ IsNumeral c) :
    step rules s c = afterValue rules (deliver v frames) c := by
  obtain ⟨opened, result, hdeliver⟩ := deliver_eq v frames
  cases h with
  | delivered =>
    rw [hdeliver]
    rfl
  | number h =>
    simp only [IsNumeral] at hc
    simp only [step, if_neg hc, h, hdeliver]

/-- Blanks and one more character behind a value. -/
theorem HasRead.readOn_blanks {v : Json} {frames : List Frame} {s : State} {blanks : List Char}
    {c : Char} (h : HasRead rules v frames s) (hblanks : ∀ b ∈ blanks, isSpace b = true)
    (hc : ¬ IsNumeral c) :
    readOn rules s (blanks ++ [c]) = afterValue rules (deliver v frames) c := by
  cases blanks with
  | nil => exact h.step_eq hc
  | cons b blanks =>
    have hb : isSpace b = true := hblanks b List.mem_cons_self
    -- the first blank completes a number, the others change nothing
    have hfirst : step rules s b = deliver v frames := by
      rw [h.step_eq (not_isNumeral_of_isSpace hb), afterValue, if_pos hb]
    have hrest : readOn rules (deliver v frames) blanks = deliver v frames := by
      obtain ⟨opened, result, hdeliver⟩ := deliver_eq v frames
      rw [hdeliver]
      exact Reader.readOn_blanks .next fun d hd => hblanks d (List.mem_cons_of_mem b hd)
    rw [List.cons_append, readOn_cons, hfirst, readOn_append, hrest, readOn_cons, readOn_nil]
    exact HasRead.delivered.step_eq hc

/-! ## §5 Numbers -/

theorem isNumeral_of_intChar {c : Char} (h : c = '-' ∨ Decimal.isDigit c = true) : IsNumeral c := by
  rcases h with h | h
  · exact .inr (.inl h)
  · exact .inl h

theorem startValue_numeral {c : Char} (h : c = '-' ∨ Decimal.isDigit c = true)
    (frames : List Frame) : startValue rules frames c = ⟨.number [c], frames, none⟩ := by
  have hne : ∀ d, ¬ (d = '-' ∨ Decimal.isDigit d = true) → c ≠ d := fun d hd hcd => hd (hcd ▸ h)
  simp only [startValue, if_neg (hne '"' (by decide)), if_neg (hne '[' (by decide)),
    if_neg (hne '\x7b' (by decide)), if_neg (hne 't' (by decide)), if_neg (hne 'f' (by decide)),
    if_neg (hne 'n' (by decide)), if_pos h]

theorem isSpace_numeral {c : Char} (h : c = '-' ∨ Decimal.isDigit c = true) :
    isSpace c = false := by
  rw [← Bool.not_eq_true]
  intro hspace
  exact not_isNumeral_of_isSpace hspace (isNumeral_of_intChar h)

theorem readOn_numeral {cs : List Char} (h : ∀ c ∈ cs, c = '-' ∨ Decimal.isDigit c = true)
    (read : List Char) (frames : List Frame) :
    readOn rules ⟨.number read, frames, none⟩ cs = ⟨.number (cs.reverse ++ read), frames, none⟩ := by
  induction cs generalizing read with
  | nil => rfl
  | cons c cs ih =>
    have hstep : step rules ⟨.number read, frames, none⟩ c = ⟨.number (c :: read), frames, none⟩ := by
      have hc : IsNumeral c := isNumeral_of_intChar (h c List.mem_cons_self)
      simp only [IsNumeral] at hc
      simp only [step, if_pos hc]
    rw [readOn_cons, hstep, ih fun d hd => h d (List.mem_cons_of_mem c hd), List.reverse_cons,
      List.append_assoc, List.singleton_append]

theorem readOn_intChars (i : Int) (frames : List Frame) :
    readOn rules ⟨.value, frames, none⟩ (Decimal.intChars i) =
      ⟨.number (Decimal.intChars i).reverse, frames, none⟩ := by
  obtain ⟨c, cs, hcs⟩ := List.exists_cons_of_ne_nil (Decimal.intChars_ne_nil i)
  have hall : ∀ d ∈ c :: cs, d = '-' ∨ Decimal.isDigit d = true := by
    intro d hd
    rw [← hcs] at hd
    exact Decimal.mem_intChars hd
  have hc := hall c List.mem_cons_self
  have hstep : step rules ⟨.value, frames, none⟩ c = ⟨.number [c], frames, none⟩ := by
    simp only [step, isSpace_numeral hc, startValue_numeral hc]
    rfl
  rw [hcs, readOn_cons, hstep, readOn_numeral fun d hd => hall d (List.mem_cons_of_mem c hd),
    List.reverse_cons]

/-- An integer of 64 bits is handed over when its numeral is complete. -/
theorem deliverNumber_intChars {i : Int} (h : Numeral.Fits i) (frames : List Frame) :
    deliverNumber rules (Decimal.intChars i).reverse frames = deliver (.integer i) frames := by
  obtain ⟨numeral, hchars, hvalue⟩ := Numeral.value?_intChars h
  simp only [deliverNumber, List.reverse_reverse, hchars, hvalue]

/-! ## §6 Lists and objects -/

/-- A value is read back wherever it stands with room for so many more containers. -/
def ReadsBack (rules : Rules) (style : Style) (n : Nat) (v : Json) : Prop :=
  ∀ depth frames, frames.length + n ≤ rules.depthLimit →
    HasRead rules v frames (readOn rules ⟨.value, frames, none⟩ (write style depth v))

/-- The items behind the first one, up to the closing bracket. -/
theorem readOn_items (hs : style.Blank) {n : Nat} {rest : List Json}
    (ih : ∀ w ∈ rest, ReadsBack rules style n w) {v : Json} {read : List Json}
    {frames : List Frame} {s : State} (hroom : frames.length + 1 + n ≤ rules.depthLimit)
    (h : HasRead rules v (.list read :: frames) s) (depth outer : Nat) :
    readOn rules s (writeItems style depth rest ++ style.newline outer ++ [']']) =
      deliver (.list (read.reverse ++ v :: rest)) frames := by
  induction rest generalizing v read s with
  | nil =>
    rw [writeItems, List.nil_append, h.readOn_blanks (hs.newline outer) (by decide)]
    simp [afterValue, deliver, isSpace]
  | cons w rest ihrest =>
    have hcomma : step rules s ',' = ⟨.value, .list (v :: read) :: frames, none⟩ := by
      rw [h.step_eq (by decide)]
      simp [afterValue, deliver, isSpace]
    have hw := ih w List.mem_cons_self depth (.list (v :: read) :: frames) hroom
    have hrest := ihrest (fun u hu => ih u (List.mem_cons_of_mem w hu)) hw
    rw [writeItems, List.cons_append, List.cons_append, List.cons_append, readOn_cons, hcomma]
    simp only [List.append_assoc] at hrest ⊢
    rw [readOn_append, readOn_blanks .value (hs.newline depth), readOn_append, hrest,
      List.reverse_cons, List.append_assoc, List.singleton_append]

/-- An entry, where a name may stand. -/
theorem readOn_entry (hs : style.Blank) {n : Nat} {w : Json} (hw : ReadsBack rules style n w)
    {mode : Mode} (hmode : mode = .firstName ∨ mode = .name) {frames : List Frame}
    (hroom : frames.length + 1 + n ≤ rules.depthLimit) (depth : Nat) (entries : Entries)
    (other name : String) :
    HasRead rules w (.object entries name :: frames)
      (readOn rules ⟨mode, .object entries other :: frames, none⟩
        (style.newline depth ++ quoted name ++ [':'] ++ style.afterColon ++
          write style depth w)) := by
  have hpass : mode.PassesBlanks := by
    rcases hmode with rfl | rfl <;> constructor
  have hquote : step rules ⟨mode, .object entries other :: frames, none⟩ '"' =
      ⟨.string true [], .object entries other :: frames, none⟩ := by
    rcases hmode with rfl | rfl <;> rfl
  have hname : readOn rules ⟨mode, .object entries other :: frames, none⟩ (quoted name) =
      ⟨.colon, .object entries name :: frames, none⟩ := by
    rw [quoted, List.cons_append, readOn_cons, hquote, readOn_quoted]
    simp only [deliverText, List.reverse_reverse, String.ofList_toList, if_true]
  have hcolon : readOn rules ⟨.colon, .object entries name :: frames, none⟩ [':'] =
      ⟨.value, .object entries name :: frames, none⟩ := rfl
  rw [readOn_append, readOn_append, readOn_append, readOn_append,
    readOn_blanks hpass (hs.newline depth), hname, hcolon, readOn_blanks .value hs.afterColon]
  exact hw depth (.object entries name :: frames) hroom

/-- The entries behind the first one, up to the closing bracket. -/
theorem readOn_entries (hs : style.Blank) {n : Nat} {rest : List (String × Json)}
    (ih : ∀ e ∈ rest, ReadsBack rules style n e.2) {v : Json} {name : String} {read : Entries}
    {frames : List Frame} {s : State} (hroom : frames.length + 1 + n ≤ rules.depthLimit)
    (hnames : (Entries.names (read.reverse ++ (name, v) :: rest)).Nodup)
    (h : HasRead rules v (.object read name :: frames) s) (depth outer : Nat) :
    readOn rules s (writeEntries style depth rest ++ style.newline outer ++ ['\x7d']) =
      deliver (.object (read.reverse ++ (name, v) :: rest)) frames := by
  induction rest generalizing v name read s with
  | nil =>
    -- the names are different, so merging them changes nothing
    have hclose : close rules ((name, v) :: read) = .object (read.reverse ++ [(name, v)]) := by
      rw [close, List.reverse_cons, Entries.merge_of_nodup hnames, ite_self]
    rw [writeEntries, List.nil_append, h.readOn_blanks (hs.newline outer) (by decide)]
    simp [afterValue, deliver, isSpace, hclose]
  | cons e rest ihrest =>
    obtain ⟨other, w⟩ := e
    have hcomma : step rules s ',' = ⟨.name, .object ((name, v) :: read) name :: frames, none⟩ := by
      rw [h.step_eq (by decide)]
      simp [afterValue, deliver, isSpace]
    have hshift : read.reverse ++ (name, v) :: (other, w) :: rest =
        ((name, v) :: read).reverse ++ (other, w) :: rest := by
      rw [List.reverse_cons, List.append_assoc, List.singleton_append]
    have hw := readOn_entry hs (ih (other, w) List.mem_cons_self) (.inr rfl) hroom depth
      ((name, v) :: read) name other
    have hrest := ihrest (fun u hu => ih u (List.mem_cons_of_mem (other, w) hu)) (hshift ▸ hnames) hw
    rw [writeEntries, List.append_assoc, List.append_assoc, List.cons_append, readOn_cons, hcomma,
      readOn_append, ← List.append_assoc, hrest, hshift]

/-! ## §7 The value comes back -/

/-- What a plain value is written with begins neither with a blank nor with a closing bracket. -/
theorem write_eq_cons (style : Style) {n : Nat} {v : Json} (h : Plain n v) (depth : Nat) :
    ∃ c cs, write style depth v = c :: cs ∧ isSpace c = false ∧ c ≠ ']' := by
  cases h with
  | null => exact ⟨_, _, rfl, rfl, by decide⟩
  | boolean b => cases b <;> exact ⟨_, _, rfl, rfl, by decide⟩
  | @integer _ i _ =>
    obtain ⟨c, cs, hcs⟩ := List.exists_cons_of_ne_nil (Decimal.intChars_ne_nil i)
    have hc : c = '-' ∨ Decimal.isDigit c = true := Decimal.mem_intChars (hcs ▸ List.mem_cons_self)
    refine ⟨c, cs, by rw [write, hcs], isSpace_numeral hc, ?_⟩
    rintro rfl
    exact absurd hc (by decide)
  | text s => exact ⟨_, _, rfl, rfl, by decide⟩
  | @list _ items _ => cases items <;> exact ⟨_, _, rfl, rfl, by decide⟩
  | @object _ entries _ _ => cases entries <;> exact ⟨_, _, rfl, rfl, by decide⟩

/-- Where an item may stand, it is read as a value. -/
theorem readOn_firstItem {n : Nat} {v : Json} (h : Plain n v) (depth : Nat)
    (frames : List Frame) :
    readOn rules ⟨.firstItem, frames, none⟩ (write style depth v) =
      readOn rules ⟨.value, frames, none⟩ (write style depth v) := by
  obtain ⟨c, cs, hcs, hspace, hbracket⟩ := write_eq_cons style h depth
  have hstep : step rules ⟨.firstItem, frames, none⟩ c = step rules ⟨.value, frames, none⟩ c := by
    simp only [step, hspace, if_neg hbracket]
    rfl
  rw [hcs, readOn_cons, readOn_cons, hstep]

theorem readsBack_list (hs : style.Blank) {n : Nat} {items : List Json}
    (h : ∀ v ∈ items, Plain n v) (ih : ∀ v ∈ items, ReadsBack rules style n v) :
    ReadsBack rules style (n + 1) (.list items) := by
  intro depth frames hroom
  have hopen : step rules ⟨.value, frames, none⟩ '[' = ⟨.firstItem, .list [] :: frames, none⟩ := by
    have hlt : frames.length < rules.depthLimit := by omega
    simp [step, startValue, isSpace, push, hlt]
  have hread : readOn rules ⟨.value, frames, none⟩ (write style depth (.list items)) =
      deliver (.list items) frames := by
    cases items with
    | nil =>
      rw [write, readOn_cons, hopen]
      rfl
    | cons v rest =>
      have hroom' : frames.length + 1 + n ≤ rules.depthLimit := by omega
      have hv := ih v List.mem_cons_self (depth + 1) (.list [] :: frames) hroom'
      have hrest := readOn_items hs (fun w hw => ih w (List.mem_cons_of_mem v hw)) hroom' hv
        (depth + 1) depth
      rw [write, List.append_assoc, List.append_assoc, List.cons_append, readOn_cons, hopen,
        List.append_assoc, readOn_append, readOn_blanks .firstItem (hs.newline _), readOn_append,
        readOn_firstItem (h v List.mem_cons_self), ← List.append_assoc, hrest]
      rfl
  rw [hread]
  exact .delivered

theorem readsBack_object (hs : style.Blank) {n : Nat} {entries : List (String × Json)}
    (hnames : (Entries.names entries).Nodup) (ih : ∀ e ∈ entries, ReadsBack rules style n e.2) :
    ReadsBack rules style (n + 1) (.object entries) := by
  intro depth frames hroom
  have hopen : step rules ⟨.value, frames, none⟩ '\x7b' =
      ⟨.firstName, .object [] "" :: frames, none⟩ := by
    have hlt : frames.length < rules.depthLimit := by omega
    simp [step, startValue, isSpace, push, hlt]
  have hread : readOn rules ⟨.value, frames, none⟩ (write style depth (.object entries)) =
      deliver (.object entries) frames := by
    cases entries with
    | nil =>
      rw [write, readOn_cons, hopen]
      rfl
    | cons e rest =>
      obtain ⟨name, v⟩ := e
      have hroom' : frames.length + 1 + n ≤ rules.depthLimit := by omega
      have hv := readOn_entry hs (ih (name, v) List.mem_cons_self) (.inl rfl) hroom' (depth + 1)
        [] "" name
      have hdistinct : (Entries.names (List.reverse [] ++ (name, v) :: rest)).Nodup := hnames
      have hrest := readOn_entries hs (fun w hw => ih w (List.mem_cons_of_mem (name, v) hw)) hroom'
        hdistinct hv (depth + 1) depth
      rw [write, List.append_assoc, List.append_assoc, List.cons_append, readOn_cons, hopen,
        readOn_append, ← List.append_assoc, hrest]
      rfl
  rw [hread]
  exact .delivered

/-- Every plain value is read back wherever there is room for it. -/
theorem readsBack_of_plain (hs : style.Blank) {n : Nat} {v : Json} (h : Plain n v) :
    ReadsBack rules style n v := by
  induction h with
  | null =>
    intro depth frames _
    exact HasRead.delivered
  | boolean b =>
    intro depth frames _
    cases b <;> exact HasRead.delivered
  | integer h =>
    intro depth frames _
    rw [write, readOn_intChars]
    exact .number (deliverNumber_intChars h frames)
  | text s =>
    intro depth frames _
    have hquote : step rules ⟨.value, frames, none⟩ '"' = ⟨.string false [], frames, none⟩ := rfl
    have hread : readOn rules ⟨.value, frames, none⟩ (quoted s) = deliver (.text s) frames := by
      rw [quoted, List.cons_append, readOn_cons, hquote, readOn_quoted]
      simp only [deliverText, List.reverse_reverse, String.ofList_toList, Bool.false_eq_true,
        if_false]
    rw [write, hread]
    exact .delivered
  | list h ih => exact readsBack_list hs h ih
  | object hnames _ ih => exact readsBack_object hs hnames ih

theorem HasRead.finish_eq {v : Json} {s : State} (h : HasRead rules v [] s) :
    finish rules s = some v := by
  cases h with
  | delivered => rfl
  | number h => simp only [finish, h, deliver]

/-- **What is written is read back.** A plain value that nests no deeper than the rules allow is the
value of its text, with whatever blanks between the parts it is written. -/
theorem read?_write (hs : style.Blank) {n : Nat} {v : Json} (h : Plain n v)
    (hroom : n ≤ rules.depthLimit) (depth : Nat) :
    read? rules (String.ofList (write style depth v)) = some v := by
  have hread : HasRead rules v [] (readOn rules .start (write style depth v)) :=
    readsBack_of_plain hs h depth [] (by simpa using hroom)
  rw [read?, String.toList_ofList]
  exact hread.finish_eq

end Reader

end MetadataCatalog.Json
