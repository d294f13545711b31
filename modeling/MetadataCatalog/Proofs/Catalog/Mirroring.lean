import MetadataCatalog.Catalog.Find
import MetadataCatalog.Catalog.Ingest

/-!
# Keepers that do the same

Work in one state mirrors work in another, along a relation of the states, when it has the same
outcome and leaves related states (`Work.Mirrors`), and it matches other work when that holds of
outcomes that need only go together (`Work.Matches`). Ingesting and finding go through keepers only,
so with keepers that mirror others they mirror what is done with those (`ingestWith_mirrors`,
`findWith_mirrors`).
-/

namespace MetadataCatalog

variable {σ τ α β : Type} {R : σ → τ → Prop}

namespace Work

/-- What comes next goes by what the first piece has done. -/
theorem run_bind_congr {m m' : Work σ α} {s : σ} (h : m.run s = m'.run s) (f : α → Work σ β) :
    (m >>= f).run s = (m' >>= f).run s := by
  show ExceptT.bindCont f (m.run s).1 (m.run s).2 = ExceptT.bindCont f (m'.run s).1 (m'.run s).2
  rw [h]

/-- From related states the work `m` has the outcome of the work `m'`, and it leads to related
states, also when it fails. -/
def Mirrors (R : σ → τ → Prop) (m : Work σ α) (m' : Work τ α) : Prop :=
  ∀ s t, R s t → ∃ s', m.run s = ((m'.run t).1, s') ∧ R s' (m'.run t).2

namespace Mirrors

theorem ofExcept (outcome : Except Fault α) :
    Mirrors R (ofExcept outcome) (ofExcept outcome) :=
  fun s _ h => ⟨s, rfl, h⟩

theorem pure (a : α) : Mirrors R (pure a) (pure a) :=
  ofExcept (.ok a)

theorem bind {m : Work σ α} {m' : Work τ α} {f : α → Work σ β} {f' : α → Work τ β}
    (hm : Mirrors R m m') (hf : ∀ a, Mirrors R (f a) (f' a)) :
    Mirrors R (m >>= f) (m' >>= f') := by
  intro s t h
  obtain ⟨s₁, hrun, hrelated⟩ := hm s t h
  rcases hrun' : m'.run t with ⟨outcome, t₁⟩
  rw [hrun'] at hrun hrelated
  cases outcome with
  | error fault =>
    -- both stop, in states that are related
    rw [run_bind_error hrun, run_bind_error hrun']
    exact ⟨s₁, rfl, hrelated⟩
  | ok a =>
    rw [run_bind_ok hrun, run_bind_ok hrun']
    exact hf a s₁ t₁ hrelated

end Mirrors

/-- From related states both fail with the same fault, in states that are left alone (`E`), or both
succeed, with values and states that go together (`Q`). -/
def Matches (R E : σ → τ → Prop) (Q : α → β → σ → τ → Prop) (m : Work σ α) (m' : Work τ β) : Prop :=
  ∀ s t, R s t →
    (∃ fault s' t', m.run s = (.error fault, s') ∧ m'.run t = (.error fault, t') ∧ E s' t') ∨
      ∃ a b s' t', m.run s = (.ok a, s') ∧ m'.run t = (.ok b, t') ∧ Q a b s' t'

namespace Matches

variable {E : σ → τ → Prop} {γ δ : Type} {Q : α → β → σ → τ → Prop} {Q' : γ → δ → σ → τ → Prop}

theorem of_mirrors {m : Work σ α} {m' : Work τ α} (h : Mirrors R m m')
    (hE : ∀ s t, R s t → E s t) : Matches R E (fun a b s t => a = b ∧ R s t) m m' := by
  intro s t hrelated
  obtain ⟨s', hrun, hrelated'⟩ := h s t hrelated
  rcases hrun' : m'.run t with ⟨fault | a, t'⟩
  · rw [hrun'] at hrun hrelated'
    exact .inl ⟨fault, s', t', hrun, rfl, hE s' t' hrelated'⟩
  · rw [hrun'] at hrun hrelated'
    exact .inr ⟨a, a, s', t', hrun, rfl, rfl, hrelated'⟩

theorem bind {m : Work σ α} {m' : Work τ β} {f : α → Work σ γ} {f' : β → Work τ δ}
    (hm : Matches R E Q m m') (hf : ∀ a b, Matches (Q a b) E Q' (f a) (f' b)) :
    Matches R E Q' (m >>= f) (m' >>= f') := by
  intro s t h
  rcases hm s t h with ⟨fault, s₁, t₁, hrun, hrun', hE⟩ | ⟨a, b, s₁, t₁, hrun, hrun', hQ⟩
  · exact .inl ⟨fault, s₁, t₁, run_bind_error hrun f, run_bind_error hrun' f', hE⟩
  · rw [run_bind_ok hrun, run_bind_ok hrun']
    exact hf a b s₁ t₁ hQ

/-- What is known of the values can be taken out of the relation of the states. -/
theorem assuming {known : Prop} {m : Work σ α} {m' : Work τ β}
    (h : known → Matches R E Q m m') : Matches (fun s t => known ∧ R s t) E Q m m' :=
  fun s t hrelated => h hrelated.1 s t hrelated.2

end Matches

end Work

/-! ## §1 Ingesting -/

section Keepers

variable {records : RecordKeeper σ} {records' : RecordKeeper τ} {datasets : DatasetKeeper σ}
  {datasets' : DatasetKeeper τ}

theorem ingestWith_mirrors
    (hdatasets : ∀ d files,
      Work.Mirrors R (datasets.insertDataset d files) (datasets'.insertDataset d files))
    (hrecords : ∀ r, Work.Mirrors R (records.insert r) (records'.insert r))
    (d : Dataset) (text : String) (files : List String) :
    Work.Mirrors R (ingestWith records datasets d text files)
      (ingestWith records' datasets' d text files) := by
  unfold ingestWith
  refine (hdatasets d files).bind fun number => ?_
  refine (hrecords _).bind fun recordId => ?_
  exact Work.Mirrors.pure _

/-! ## §2 Finding -/

theorem filesFor_mirrors
    (hfiles : ∀ d, Work.Mirrors R (datasets.findFiles d) (datasets'.findFiles d))
    (dataset : String) :
    Work.Mirrors R (filesFor datasets dataset) (filesFor datasets' dataset) := by
  unfold filesFor
  refine (Work.Mirrors.ofExcept _).bind fun d => ?_
  refine (hfiles d).bind fun files => ?_
  exact Work.Mirrors.pure _

/-- Without a keeper of datasets what is found comes without files. -/
theorem run_hitsOf_none (found : List CatalogRecord) (s : σ) :
    (hitsOf none found).run s = (.ok (found.map fun record => ⟨record, none⟩), s) := by
  induction found with
  | nil => rfl
  | cons record rest ih =>
    have hnone : (pure none : Work σ (Option (List String))).run s = (.ok none, s) := rfl
    unfold hitsOf
    rw [Work.run_bind_ok hnone, Work.run_bind_ok ih]
    rfl

/-- Then the search alone decides what comes out. -/
theorem run_findWith_none {query : String} {outcome : Except Fault (List CatalogRecord)} {s s' : σ}
    (hsearch : (records.search query).run s = (outcome, s')) :
    (findWith records none query).run s =
      (outcome.map fun found => found.map fun record => ⟨record, none⟩, s') := by
  unfold findWith
  cases outcome with
  | error fault => exact Work.run_bind_error hsearch _
  | ok found => exact (Work.run_bind_ok hsearch _).trans (run_hitsOf_none found s')

variable (withFiles : Bool)

theorem hitsOf_mirrors
    (hfiles : withFiles = true →
      ∀ d, Work.Mirrors R (datasets.findFiles d) (datasets'.findFiles d))
    (found : List CatalogRecord) :
    Work.Mirrors R (hitsOf (if withFiles then some datasets else none) found)
      (hitsOf (if withFiles then some datasets' else none) found) := by
  induction found with
  | nil => exact Work.Mirrors.pure _
  | cons record rest ih =>
    unfold hitsOf
    have hrest := fun files => ih.bind fun hits =>
      Work.Mirrors.pure (({ record, files } : Hit) :: hits)
    cases withFiles with
    | true =>
      have hrecord := (filesFor_mirrors (hfiles rfl) record.dataset).bind fun files =>
        Work.Mirrors.pure (some files)
      exact hrecord.bind hrest
    | false => exact (Work.Mirrors.pure none).bind hrest

theorem findWith_mirrors
    (hsearch : ∀ query, Work.Mirrors R (records.search query) (records'.search query))
    (hfiles : withFiles = true →
      ∀ d, Work.Mirrors R (datasets.findFiles d) (datasets'.findFiles d))
    (query : String) :
    Work.Mirrors R (findWith records (if withFiles then some datasets else none) query)
      (findWith records' (if withFiles then some datasets' else none) query) := by
  unfold findWith
  exact (hsearch query).bind fun found => hitsOf_mirrors withFiles hfiles found

end Keepers

end MetadataCatalog
