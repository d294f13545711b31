import MetadataCatalog.Proofs.Catalog.Transactions

/-!
# Rollbacks

A registration in which a statement fails is rolled back. Wherever the statement stands among those
of the registration, the call fails and the tables, numbers given included, are as before it; so
what is registered later is registered as if the call had not been made (`insertDataset_refused`).
-/

namespace MetadataCatalog

namespace FilesTables

/-- The answers of registrations one after the other, each with what is refused during it, and the
tables after them. -/
def insertAll (t : FilesTables) :
    List (Refuses × Dataset × List String) → List (Except Fault Nat) × FilesTables
  | [] => ([], t)
  | (refuses, d, files) :: rest =>
    let (answer, tables) := t.insertDataset refuses d files
    let (answers, tables) := tables.insertAll rest
    (answer :: answers, tables)

/-- **A failing statement leaves no trace.** Whichever of the statements of a registration is
refused, whatever the tables hold, the call fails with the tables as they are, and all registrations
after it have the answers and lead to the tables that they would without it. It fails only if one of
its statements is refused. -/
theorem insertDataset_refused (t : FilesTables) (refuses : Refuses) (d : Dataset)
    (files : List String) :
    (∀ k table, (t.statements d files)[k]? = some table → refuses k table = true →
      t.insertDataset refuses d files = (.error .database, t) ∧
        ∀ later, t.insertAll ((refuses, d, files) :: later) =
          (.error .database :: (t.insertAll later).1, (t.insertAll later).2)) ∧
    ((∀ k table, (t.statements d files)[k]? = some table → refuses k table = false) →
      t.insertDataset refuses d files = (.ok (t.numberFor d), t.registered d files)) := by
  refine ⟨fun k table hk hrefused => ?_, fun h => insertDataset_of_not_stops ?_⟩
  · have hfail : t.insertDataset refuses d files = (.error .database, t) :=
      insertDataset_of_stops ⟨k, table, hk, by rwa [Nat.zero_add]⟩
    refine ⟨hfail, fun later => ?_⟩
    rw [insertAll, hfail]
  · rintro ⟨k, table, hk, hrefused⟩
    rw [Nat.zero_add, h k table hk] at hrefused
    cases hrefused

/-- Tables with one dataset, which has one file. -/
def scanTables : FilesTables :=
  registered .empty ⟨"beam", "raw", "first"⟩ ["raw/scan"]

/-- When the tenth statement fails, which is to add the second file, the first file, the dataset and
two names stand in the tables that the transaction sees. They are gone when it has failed, and the
next dataset gets the number that this one would have got. -/
theorem insertDataset_refused_second_file :
    let refuses : Refuses := fun k _ => k = 9
    let d : Dataset := ⟨"beam", "cooked", "second"⟩
    scanTables.statements d ["a", "b"] =
        [.names .experiment, .names .processing, .names .processing, .names .tier, .names .tier,
          .datasets, .datasets, .files, .files, .files] ∧
      ((registration refuses d ["a", "b"]).run ⟨scanTables, 0⟩).2.tables.files.rows =
        [(1, ⟨1, "raw/scan"⟩), (2, ⟨2, "a"⟩)] ∧
      scanTables.insertDataset refuses d ["a", "b"] = (.error .database, scanTables) ∧
      (scanTables.insertAll [(refuses, d, ["a", "b"]), (obliging, ⟨"beam", "raw", "third"⟩, [])]).1 =
        [.error .database, .ok 2] := by
  intro refuses d
  obtain ⟨hfail, hlater⟩ := (insertDataset_refused scanTables refuses d ["a", "b"]).1 9 .files rfl rfl
  refine ⟨rfl, rfl, hfail, ?_⟩
  rw [hlater]
  rfl

end FilesTables

end MetadataCatalog
