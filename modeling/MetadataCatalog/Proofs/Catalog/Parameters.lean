import MetadataCatalog.Catalog.Find
import MetadataCatalog.Catalog.Ingest
import MetadataCatalog.Proofs.Catalog.Connections
import MetadataCatalog.Proofs.Json.ReadingBack
import MetadataCatalog.Proofs.Outcomes
import MetadataCatalog.Proofs.Text.Trimming

/-!
# Parameters that mean the same

Two sets of parameters mean the same when each parameter has the same value in both once it is
trimmed, a blank one being none (`Params.MeansSame`). What a catalog does with them should then be
the same. It is, but for the name of the collection, which is taken as it is given:
`operations_alike` says for which parameters that makes a difference, and `blank_name_refused` shows
some for which it does.

Parameters of which one is missing are refused. The refusal names the key, and the compact text in
it shows the parameters so that they can be read back (`Params.shown_of_require`).
-/

namespace MetadataCatalog

namespace ParamKey

@[simp]
theorem ofName?_name (key : ParamKey) : ofName? key.name = some key := by
  cases key <;> rfl

theorem mem_all (key : ParamKey) : key ∈ all := by
  cases key <;> decide

theorem all_nodup : all.Nodup := by decide

theorem name_inj {key other : ParamKey} (h : key.name = other.name) : key = other :=
  Option.some.inj (by rw [← ofName?_name key, h, ofName?_name])

end ParamKey

namespace Params

/-! ## §1 Values -/

/-- The value of a parameter without the blanks around it, if anything is left of it. -/
def meaning? (p : Params) (key : ParamKey) : Option String :=
  ((p.given key).map Text.trim).filter (· ≠ "")

/-- Trimmed, with the blank ones taken as missing, all parameters are the same. -/
def MeansSame (p q : Params) : Prop :=
  ∀ key, p.meaning? key = q.meaning? key

theorem value?_eq_meaning? (p : Params) (key : ParamKey) : p.value? key = p.meaning? key := by
  rw [value?, meaning?]
  cases p.given key with
  | none => rfl
  | some s =>
    -- a text is blank exactly when nothing is left of it once it is trimmed
    by_cases hblank : Text.isBlankText s = true
    · have htrim : Text.trim s = "" := Text.trim_eq_empty_iff.mpr hblank
      simp [hblank, htrim, Option.filter]
    · have htrim : Text.trim s ≠ "" := fun h => hblank (Text.trim_eq_empty_iff.mp h)
      simp [hblank, htrim, Option.filter]

theorem get_eq_ok_iff {p : Params} {key : ParamKey} {value : String} :
    p.get key = .ok value ↔ p.value? key = some value := by
  rw [get]
  cases p.value? key <;> simp

/-- Where the same keys are there, the same key is found to be missing. -/
theorem outline_require_of_isSome {p q : Params} {keys : List ParamKey}
    (h : ∀ key ∈ keys, (p.value? key).isSome = (q.value? key).isSome) :
    outline (p.require keys) = outline (q.require keys) := by
  rw [require, require]
  -- the keys are looked for in order, so the first one that is missing is the same
  induction keys with
  | nil => rfl
  | cons key rest ih =>
    have hkey := h key List.mem_cons_self
    have hrest := ih fun other hother => h other (List.mem_cons_of_mem _ hother)
    rw [List.map_cons, requireNamed, requireNamed, ParamKey.ofName?_name, Option.bind_some,
      Option.bind_some]
    cases hp : p.value? key <;> cases hq : q.value? key <;> rw [hp, hq] at hkey
    · rfl
    · cases hkey
    · cases hkey
    · exact hrest

section MeansSame

variable {p q : Params} (h : p.MeansSame q)

include h

theorem MeansSame.value?_eq : p.value? = q.value? := by
  funext key
  rw [value?_eq_meaning?, value?_eq_meaning?, h key]

theorem MeansSame.get_eq : p.get = q.get := by
  funext key
  rw [get, get, h.value?_eq]

theorem MeansSame.dataset_eq : p.dataset = q.dataset := by
  rw [dataset, dataset, h.get_eq]

/-- The same key is found to be missing, though what is shown of the parameters can differ. -/
theorem MeansSame.outline_require (keys : List ParamKey) :
    outline (p.require keys) = outline (q.require keys) :=
  outline_require_of_isSome fun key _ => by rw [h.value?_eq]

end MeansSame

/-! ## §2 What a refusal shows -/

section Shown

variable {p : Params}

theorem plain_entries (p : Params) : Json.Plain 1 (.object p.entries) := by
  refine .object ?_ fun e he => ?_
  · -- the entries of different keys have different names
    rw [Json.Entries.names, entries, List.Nodup, List.pairwise_map, List.pairwise_filterMap]
    refine ParamKey.all_nodup.imp fun hne e he e' he' hname => ?_
    obtain ⟨value, -, rfl⟩ := Option.map_eq_some_iff.mp he
    obtain ⟨value', -, rfl⟩ := Option.map_eq_some_iff.mp he'
    exact hne (ParamKey.name_inj hname)
  · obtain ⟨key, -, hkey⟩ := List.mem_filterMap.mp he
    obtain ⟨value, -, rfl⟩ := Option.map_eq_some_iff.mp hkey
    exact .text value

/-- Parameters that lack some keys are completed by the entries for these keys. -/
theorem ofNamed?_entries {keys seen : List ParamKey} {q : Params} (hkeys : keys.Nodup)
    (hseen : ∀ key ∈ keys, key ∉ seen)
    (hq : ∀ key, q.given key = if key ∈ keys then none else p.given key) :
    ofNamed? jsonValue? seen q (keys.filterMap fun key =>
      (p.given key).map fun value => (key.name, .text value)) = some p := by
  induction keys generalizing seen q with
  | nil =>
    have hsame : q = p := congrArg Params.mk (funext fun key => hq key)
    exact congrArg some hsame
  | cons key rest ih =>
    obtain ⟨hkey, hrest⟩ := List.nodup_cons.mp hkeys
    cases hvalue : p.given key with
    | none =>
      rw [List.filterMap_cons_none (by rw [hvalue]; rfl)]
      refine ih hrest (fun _ hother => hseen _ (List.mem_cons_of_mem _ hother)) fun other => ?_
      rw [hq other]
      by_cases hother : other = key
      · subst hother
        simp [hvalue]
      · simp [hother]
    | some value =>
      rw [List.filterMap_cons_some (by rw [hvalue]; rfl), ofNamed?, ParamKey.ofName?_name]
      dsimp only
      -- the key is met for the first time, and takes its value
      rw [if_neg (hseen key List.mem_cons_self)]
      refine ih hrest (fun other hother => ?_) fun other => ?_
      · rintro (_ | ⟨_, hmem⟩)
        · exact hkey hother
        · exact hseen other (List.mem_cons_of_mem _ hother) hmem
      · by_cases hother : other = key
        · subst hother
          simp [set, hkey, hvalue]
        · simp [set, hother, hq other]

/-- The compact text of the given parameters gives them again. -/
theorem ofJson?_compact_entries (p : Params) :
    ofJson? (Json.compact (.object p.entries)) = some p := by
  have hread : Json.Reader.read? jsonRules (Json.compact (.object p.entries)) =
      some (.object p.entries) :=
    Json.Reader.read?_write Json.Style.blank_compact p.plain_entries (by decide) 0
  rw [ofJson?, hread]
  refine ofNamed?_entries ParamKey.all_nodup (fun _ _ => List.not_mem_nil) fun key => ?_
  rw [if_pos key.mem_all]
  rfl

/-- **A missing parameter** is refused under its name, the first one if several are missing, and
from what the refusal shows the parameters can be read back. -/
theorem shown_of_require {keys : List ParamKey} {fault : Fault}
    (h : p.require keys = .error fault) :
    ∃ before key after shown, keys = before ++ key :: after ∧
      (∀ other ∈ before, (p.value? other).isSome) ∧ p.value? key = none ∧
      fault = .refused (.keyRequired key.name shown) ∧ ofJson? shown = some p := by
  rw [require] at h
  induction keys with
  | nil => cases h
  | cons key rest ih =>
    rw [List.map_cons, requireNamed, ParamKey.ofName?_name, Option.bind_some] at h
    cases hvalue : p.value? key with
    | none =>
      rw [hvalue] at h
      cases h
      exact ⟨[], key, rest, _, rfl, by simp, hvalue, rfl, p.ofJson?_compact_entries⟩
    | some value =>
      -- this one is there, so the first one that is missing is among the others
      rw [hvalue] at h
      obtain ⟨before, missing, after, shown, rfl, hbefore, hmissing⟩ := ih h
      exact ⟨key :: before, missing, after, shown, rfl, by simpa [hvalue] using hbefore, hmissing⟩

end Shown

/-! ## §3 The name of the collection -/

/-- The name of the collection, as it is given. -/
def collectionName (p : Params) : String :=
  (p.given .dbcoll).getD Store.defaultCollection

/-- The name of the collection is accepted as it is given. -/
def NamesCollection (p : Params) : Prop :=
  CollectionName.check p.collectionName = .ok ()

/-- The path of the database file in which the collection is kept, if it is kept in one. -/
def storePath? (p : Params) : Option String :=
  (p.value? .dburi).bind (Text.stripStart? Store.fileScheme)

theorem storePath?_of_get {p : Params} {address : String} (h : p.get .dburi = .ok address) :
    p.storePath? = Text.stripStart? Store.fileScheme address := by
  rw [storePath?, get_eq_ok_iff.mp h, Option.bind_some]

/-- If the collection is kept in a file that can ever be opened, its name is accepted in both sets
of parameters or in neither. -/
def NamesAlike (p q : Params) : Prop :=
  ∀ path, p.storePath? = some path →
    (∃ w c w', (Connection.ofAddress path).run w = (.ok c, w')) →
    (p.NamesCollection ↔ q.NamesCollection)

end Params

namespace CollectionName

/-- Letters and digits stand between the digit zero and the small letter z. -/
theorem toNat_of_isAlphanum {c : Char} (h : c.isAlphanum = true) :
    48 ≤ c.toNat ∧ c.toNat ≤ 122 := by
  have hval : c.toNat = c.val.toNat := rfl
  have hranges : ((decide (65 ≤ c.val ∧ c.val ≤ 90) || (97 ≤ c.val && c.val ≤ 122)) ||
      (48 ≤ c.val && c.val ≤ 57)) = true := h
  simp only [Bool.or_eq_true, Bool.and_eq_true, decide_eq_true_eq, UInt32.le_iff_toNat_le,
    UInt32.reduceToNat] at hranges
  omega

theorem toNat_of_isNameChar {c : Char} (h : isNameChar c = true) :
    48 ≤ c.toNat ∧ c.toNat ≤ 122 := by
  rcases Bool.or_eq_true_iff.mp h with halphanum | hline
  · exact toNat_of_isAlphanum halphanum
  · obtain rfl := beq_iff_eq.mp hline
    decide

theorem isBlank_of_isNameChar {c : Char} (h : isNameChar c = true) : Text.isBlank c = false := by
  obtain ⟨hlow, hhigh⟩ := toNat_of_isNameChar h
  simp only [Text.isBlank, Bool.or_eq_false_iff, Bool.and_eq_false_iff, decide_eq_false_iff_not,
    beq_eq_false_iff_ne]
  omega

/-- An accepted name has no blanks around it, and it is not blank. -/
theorem trim_of_check {name : String} (h : check name = .ok ()) :
    Text.trim name = name ∧ name ≠ "" := by
  unfold check at h
  split at h
  · cases h
  · rename_i hform
    simp only [not_or, Bool.not_eq_true', Bool.not_eq_false, List.all_eq_true] at hform
    exact ⟨Text.trim_eq_self_of_no_blank fun c hc => isBlank_of_isNameChar (hform.2 c hc), hform.1⟩

theorem isNameChar_of_toLower {c : Char} (h : isNameChar c.toLower = true) :
    isNameChar c = true := by
  by_cases hcapital : c.val ≥ 'A'.val ∧ c.val ≤ 'Z'.val
  · have hupper : c.isUpper = true := decide_eq_true hcapital
    show (((c.isUpper || c.isLower) || c.isDigit) || c == '_') = true
    rw [hupper, Bool.true_or, Bool.true_or, Bool.true_or]
  · have hsame : c.toLower = c := dif_neg hcapital
    rwa [hsame] at h

/-- A name is accepted if it is accepted in lower case. -/
theorem check_of_lowerAscii {name : String} (h : check (Text.lowerAscii name) = .ok ()) :
    check name = .ok () := by
  have hclash (other : String) :
      Text.sameIgnoringCase other (Text.lowerAscii name) = Text.sameIgnoringCase other name := by
    simp [Text.sameIgnoringCase]
  unfold check at h ⊢
  simp only [hclash] at h
  split at h
  · cases h
  · next hform =>
    split at h
    · cases h
    · next hcolumns =>
      simp only [not_or, Bool.not_eq_true', Bool.not_eq_false, List.all_eq_true] at hform
      have hne : name ≠ "" := by
        rintro rfl
        exact hform.1 rfl
      have hall : name.toList.all isNameChar = true := List.all_eq_true.mpr fun c hc => by
        refine isNameChar_of_toLower (hform.2 _ ?_)
        rw [Text.lowerAscii, String.toList_ofList]
        exact List.mem_map_of_mem hc
      rw [if_neg (by simp [hne, hall]), if_neg hcolumns]

/-- A name that is not accepted is refused. -/
theorem check_of_ne {name : String} (h : check name ≠ .ok ()) :
    ∃ why, check name = .error (.refused why) := by
  by_cases hform : name = "" ∨ !name.toList.all isNameChar
  · exact ⟨_, if_pos hform⟩
  · by_cases hclash : columns.any (Text.sameIgnoringCase · name)
    · exact ⟨_, (if_neg hform).trans (if_pos hclash)⟩
    · exact absurd ((if_neg hform).trans (if_neg hclash)) h

end CollectionName

namespace Params

variable {p q : Params}

/-- An accepted name is the default one or stands in the parameters with this meaning. -/
theorem NamesCollection.collectionName_eq (hp : p.NamesCollection) :
    p.collectionName = (p.meaning? .dbcoll).getD Store.defaultCollection := by
  unfold NamesCollection collectionName at hp
  unfold collectionName meaning?
  cases hname : p.given .dbcoll with
  | none => rfl
  | some name =>
    rw [hname, Option.getD_some] at hp
    obtain ⟨htrim, hne⟩ := CollectionName.trim_of_check hp
    simp [htrim, hne, Option.filter]

/-- Two accepted names that mean the same are the same. -/
theorem MeansSame.collectionName_eq (h : p.MeansSame q) (hp : p.NamesCollection)
    (hq : q.NamesCollection) : p.collectionName = q.collectionName := by
  rw [hp.collectionName_eq, hq.collectionName_eq, h .dbcoll]

end Params

/-! ## §4 Opening the collection -/

namespace Connection

theorem changeFiles_failsOnly (change : Files → Option Files) :
    (changeFiles change).FailsOnly (· = .database) := by
  unfold changeFiles
  refine Work.FailsOnly.get.bind fun w => ?_
  cases change w.files with
  | some files => exact Work.FailsOnly.set _
  | none => exact Work.FailsOnly.throw rfl

theorem settle_failsOnly (c : Connection) : c.settle.FailsOnly (· = .database) := by
  unfold settle
  split
  · exact (changeFiles_failsOnly _).bind fun _ => changeFiles_failsOnly _
  · exact Work.FailsOnly.pure ()

theorem read_failsOnly (c : Connection) : c.read.FailsOnly (· = .database) := by
  unfold read
  refine c.settle_failsOnly.bind fun _ => Work.FailsOnly.get.bind fun w => ?_
  cases c.database? w with
  | some db => exact Work.FailsOnly.pure db
  | none => exact Work.FailsOnly.throw rfl

theorem write_failsOnly (c : Connection) (db : Database) :
    (c.write db).FailsOnly (· = .database) := by
  cases hchange : c.access.mayChange with
  | false =>
    unfold write
    rw [hchange]
    exact Work.FailsOnly.throw rfl
  | true =>
    rw [write_of_mayChange hchange]
    cases c.seat with
    | spare index => exact Work.FailsOnly.modify _
    | file place => exact changeFiles_failsOnly _

/-- To make something in a database can fail because of the database, or as the making does. -/
theorem make_failsOnly (c : Connection) {make : Database → Except Fault Database}
    (h : ∀ db fault, make db = .error fault → fault = .database) :
    (c.make make).FailsOnly (· = .database) := by
  unfold Connection.make
  refine c.read_failsOnly.bind fun old => ?_
  refine (Work.FailsOnly.ofExcept (h old)).bind fun db => ?_
  by_cases hsame : db ≠ old
  · rw [if_pos hsame]
    exact c.write_failsOnly db
  · rw [if_neg hsame]
    exact Work.FailsOnly.pure ()

end Connection

theorem Database.openCollection_error {db : Database} {name : String} {fault : Fault}
    (h : db.openCollection name = .error fault) : fault = .database := by
  unfold Database.openCollection at h
  grind

namespace Store

/-- The address of a file is not that of a server. -/
theorem not_server_of_fileScheme {address path : String}
    (h : Text.stripStart? fileScheme address = some path) :
    (serverSchemes.any fun scheme => (Text.stripStart? scheme address).isSome) = false := by
  unfold Text.stripStart? at h
  split at h
  · rename_i hfile
    obtain ⟨rest, hrest⟩ := List.isPrefixOf_iff_prefix.mp hfile
    -- the first characters differ
    have hfirst : ∀ scheme ∈ serverSchemes, scheme.toList.isPrefixOf address.toList = false := by
      rw [← hrest]
      intro scheme hscheme
      simp only [serverSchemes, List.mem_cons, List.not_mem_nil, or_false] at hscheme
      rcases hscheme with rfl | rfl <;> rfl
    rw [List.any_eq_false]
    intro scheme hscheme
    simp [Text.stripStart?, hfirst scheme hscheme]
  · cases h

open Params

variable {p q : Params}

theorem ofParams_of_storePath? {path : String} (h : p.storePath? = some path) :
    ofParams p = (do
      let connection ← Connection.ofAddress path
      ofConnection connection p.collectionName) := by
  obtain ⟨address, haddress, hpath⟩ := Option.bind_eq_some_iff.mp h
  have hget : p.get .dburi = .ok address := get_eq_ok_iff.mpr haddress
  unfold ofParams
  rw [hget]
  show (if _ then _ else _) = _
  rw [not_server_of_fileScheme hpath, hpath]
  rfl

theorem run_ofConnection_of_check {name : String} {why : Refusal}
    (h : CollectionName.check name = .error (.refused why)) (c : Connection) (w : Workspace) :
    (ofConnection c name).run w = (.error (.refused why), w) := by
  unfold ofConnection
  rw [h]
  exact Work.run_bind_error (Work.run_ofExcept _ w) _

/-- Under an accepted name nothing is refused; what can go wrong is in the database. -/
theorem ofConnection_failsOnly {name : String} (h : CollectionName.check name = .ok ())
    (c : Connection) : (ofConnection c name).FailsOnly (· = .database) := by
  unfold ofConnection
  rw [h]
  refine (Work.FailsOnly.ofExcept fun _ h => nomatch h).bind fun _ => ?_
  refine (c.make_failsOnly fun db fault => Database.openCollection_error).bind fun _ => ?_
  exact Work.FailsOnly.pure _

theorem ofConnection_alike (c : Connection) (h : p.MeansSame q)
    (hname : p.NamesCollection ↔ q.NamesCollection) :
    (ofConnection c p.collectionName).Alike (ofConnection c q.collectionName) := by
  by_cases hp : p.NamesCollection
  · rw [h.collectionName_eq hp (hname.mp hp)]
    exact Work.Alike.refl _
  · -- both names are refused, perhaps in different words
    obtain ⟨why, hwhy⟩ := CollectionName.check_of_ne hp
    obtain ⟨why', hwhy'⟩ := CollectionName.check_of_ne fun hq => hp (hname.mpr hq)
    intro w
    rw [run_ofConnection_of_check hwhy, run_ofConnection_of_check hwhy']
    exact ⟨rfl, rfl⟩

/-- Where one name is accepted and the other is not, the outcomes differ in more than wording. -/
theorem not_ofConnection_alike {c : Connection} {w : Workspace} (hp : p.NamesCollection)
    (hq : ¬ q.NamesCollection) :
    outline ((ofConnection c p.collectionName).run w).1 ≠
      outline ((ofConnection c q.collectionName).run w).1 := by
  obtain ⟨why, hwhy⟩ := CollectionName.check_of_ne hq
  rw [run_ofConnection_of_check hwhy]
  rcases hrun : (ofConnection c p.collectionName).run w with ⟨outcome, w'⟩
  -- under the accepted name nothing is refused
  cases outcome with
  | ok store => simp
  | error fault =>
    obtain rfl := ofConnection_failsOnly hp c w fault w' hrun
    simp [Fault.outline, Fault.kind]

/-- On a server the names are looked for and then nothing is reached, which the wording of the
parameters does not change. -/
theorem ofServer_alike (h : p.MeansSame q) (address : String) :
    (ofServer address p).Alike (ofServer address q) := by
  unfold ofServer
  rw [h.get_eq]
  exact (Work.Alike.ofExcept (h.outline_require _)).bind fun _ => Work.Alike.refl _

/-- **Opening the collection** comes out the same exactly when the names are both accepted or both
not, as far as the file of the collection can be opened at all. -/
theorem ofParams_alike_iff (h : p.MeansSame q) :
    (ofParams p).Alike (ofParams q) ↔ p.NamesAlike q := by
  have hpath : q.storePath? = p.storePath? := by rw [storePath?, storePath?, h.value?_eq]
  constructor
  · rintro halike path hp ⟨w, c, w', hopen⟩
    have houtcome := (halike w).1
    rw [ofParams_of_storePath? hp, ofParams_of_storePath? (hpath.trans hp),
      Work.run_bind_ok hopen, Work.run_bind_ok hopen] at houtcome
    by_cases hp : p.NamesCollection
    · by_cases hq : q.NamesCollection
      · exact ⟨fun _ => hq, fun _ => hp⟩
      · exact absurd houtcome (not_ofConnection_alike hp hq)
    · by_cases hq : q.NamesCollection
      · exact absurd houtcome.symm (not_ofConnection_alike hq hp)
      · exact ⟨fun h => absurd h hp, fun h => absurd h hq⟩
  · intro hname
    cases hp : p.storePath? with
    | some path =>
      rw [ofParams_of_storePath? hp, ofParams_of_storePath? (hpath.trans hp)]
      refine (Work.Alike.refl _).bind_of_run fun w c w' hopen => ?_
      exact ofConnection_alike c h (hname path hp ⟨w, c, w', hopen⟩)
    | none =>
      -- no file comes in, and then the name of the collection does not either
      unfold ofParams
      rw [h.get_eq]
      refine (Work.Alike.refl _).bind_of_run fun w address w' hrun => ?_
      have haddress : q.get .dburi = .ok address := (Prod.mk.inj hrun).1
      by_cases hserver : serverSchemes.any fun scheme => (Text.stripStart? scheme address).isSome
      · rw [if_pos hserver, if_pos hserver]
        exact ofServer_alike h address
      · rw [if_neg hserver, if_neg hserver]
        rw [← storePath?_of_get haddress, hpath, hp]
        exact Work.Alike.refl _

end Store

/-! ## §5 The operations -/

section Operations

variable {p q : Params}

theorem tablesOfParams_eq (h : p.MeansSame q) :
    Connection.tablesOfParams p = Connection.tablesOfParams q := by
  rw [Connection.tablesOfParams, Connection.tablesOfParams, h.get_eq]

theorem initTables_alike (h : p.MeansSame q) : (initTables p).Alike (initTables q) := by
  unfold initTables
  rw [tablesOfParams_eq h]
  exact (Work.Alike.ofExcept (h.outline_require _)).bind fun _ => Work.Alike.refl _

theorem datasetFiles_alike (h : p.MeansSame q) (dataset : String) :
    (datasetFiles p dataset).Alike (datasetFiles q dataset) := by
  unfold datasetFiles
  rw [tablesOfParams_eq h]
  exact (Work.Alike.ofExcept (h.outline_require _)).bind fun _ => Work.Alike.refl _

theorem ingest_alike (h : p.MeansSame q) (hstore : (Store.ofParams p).Alike (Store.ofParams q)) :
    (ingest p).Alike (ingest q) := by
  unfold ingest
  rw [tablesOfParams_eq h, h.get_eq, h.dataset_eq]
  refine (Work.Alike.ofExcept (h.outline_require _)).bind fun _ => ?_
  refine (Work.Alike.refl _).bind fun document => ?_
  refine (Work.Alike.refl _).bind fun dataset => ?_
  refine (Work.Alike.refl _).bind fun text => ?_
  -- without a text neither goes on to the collection
  by_cases hblank : Text.isBlankText text
  · rw [if_pos hblank, if_pos hblank]
    exact Work.Alike.refl _
  · rw [if_neg hblank, if_neg hblank]
    refine (Work.Alike.refl _).bind fun folder => ?_
    refine (Work.Alike.refl _).bind fun files => ?_
    exact hstore.bind fun store => Work.Alike.refl _

theorem find_alike (h : p.MeansSame q) (hstore : (Store.ofParams p).Alike (Store.ofParams q))
    (query : String) (withFiles : Bool) :
    (find p query withFiles).Alike (find q query withFiles) := by
  unfold find
  rw [tablesOfParams_eq h]
  refine (Work.Alike.ofExcept (h.outline_require _)).bind fun _ => ?_
  cases withFiles with
  | true =>
    refine (Work.Alike.ofExcept (h.outline_require _)).bind fun _ => ?_
    exact hstore.bind fun store => Work.Alike.refl _
  | false => exact hstore.bind fun store => Work.Alike.refl _

end Operations

/-- **Parameters that mean the same** make and list the five tables alike, and open the collection
alike exactly when its name, as it is given, is accepted in both or in neither; then ingesting and
finding is alike, too. -/
theorem operations_alike {p q : Params} (h : p.MeansSame q) :
    (initTables p).Alike (initTables q) ∧
      (∀ dataset, (datasetFiles p dataset).Alike (datasetFiles q dataset)) ∧
      ((Store.ofParams p).Alike (Store.ofParams q) ↔ p.NamesAlike q) ∧
      (p.NamesAlike q → (ingest p).Alike (ingest q) ∧
        ∀ query withFiles, (find p query withFiles).Alike (find q query withFiles)) := by
  have hopen := Store.ofParams_alike_iff h
  refine ⟨initTables_alike h, datasetFiles_alike h, hopen, fun hname => ?_⟩
  exact ⟨ingest_alike h (hopen.mpr hname), find_alike h (hopen.mpr hname)⟩

/-- Parameters with a collection in a private database and tables in a file. -/
def Params.siteParams : Params :=
  (Params.empty.set .dburi (some "sqlite://:memory:")).set .filesdb (some "files.db")

/-- Blanks around an address and a path, and a blank parameter, make no difference. -/
theorem operations_alike_site :
    ∃ q : Params, q.given .dburi = some "\tsqlite://:memory: " ∧ q.given .filesdb = some " files.db" ∧
      q.given .tier = some " " ∧ Params.siteParams.MeansSame q ∧ Params.siteParams.NamesAlike q ∧
      (ingest Params.siteParams).Alike (ingest q) ∧
      (find Params.siteParams "silicon" true).Alike (find q "silicon" true) := by
  let q := ((Params.siteParams.set .dburi (some "\tsqlite://:memory: ")).set .filesdb
    (some " files.db")).set .tier (some " ")
  have hsame : Params.siteParams.MeansSame q := by
    intro key
    cases key <;> decide
  -- no name is given in either, and the default one is accepted
  have hname : Params.siteParams.NamesAlike q := fun path _ _ => Iff.rfl
  obtain ⟨-, -, -, hall⟩ := operations_alike hsame
  exact ⟨q, rfl, rfl, rfl, hsame, hname, (hall hname).1, (hall hname).2 "silicon" true⟩

/-- **A blank name is refused**, although it means the same as none: then the collection is opened
under its default name. -/
theorem blank_name_refused :
    Params.siteParams.MeansSame (Params.siteParams.set .dbcoll (some " ")) ∧
      (∃ store w', (Store.ofParams Params.siteParams).run (.ofFiles .bare) = (.ok store, w')) ∧
      ∃ w', (Store.ofParams (Params.siteParams.set .dbcoll (some " "))).run (.ofFiles .bare) =
        (.error (.refused (.collectionForm " ")), w') := by
  refine ⟨?_, ⟨_, _, rfl⟩, ⟨_, rfl⟩⟩
  intro key
  cases key <;> decide

end MetadataCatalog
