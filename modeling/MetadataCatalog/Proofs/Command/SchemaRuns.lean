import MetadataCatalog.Command.Run
import MetadataCatalog.Proofs.Sheet.Readings
import MetadataCatalog.Proofs.Storage.Saving

/-!
# Runs of the schema command

The schema command first asks for all it needs and writes only then. So a run that meets an obstacle
on the way to the document (`SchemaObstacle`) prints nothing and leaves the files alone, and a run
that ends well has written one file, and what it prints is the text in that file
(`schema_run_writes`).
-/

namespace MetadataCatalog

variable {files files' : Files} {workbook site : String} {output : Option String} {keysOnly : Bool}

/-! ## §1 Before the writing -/

/-- The document of a site in a workbook: its descriptors, or its key template. -/
def siteDocument (files : Files) (workbook site : String) (keysOnly : Bool) :
    Except Fault Json := do
  let book ← Workbook.ofPath files workbook
  let (t, d) ← book.schemaSheet files site
  if keysOnly then Schema.keyTemplate t d else Schema.descriptors t d

/-- What keeps a site from having a document. -/
inductive SchemaObstacle (files : Files) (workbook site : String) (keysOnly : Bool) : Prop
  /-- The workbook cannot be opened. -/
  | workbook {fault : Fault} (h : Workbook.ofPath files workbook = .error fault)
  /-- The sheet of the site is missing, or it cannot be read. -/
  | schemaSheet {book : Workbook} {fault : Fault}
      (hbook : Workbook.ofPath files workbook = .ok book)
      (h : book.sheet files (Schema.sheetName site) = .error fault)
  /-- The sheet of the dictionary is missing, or it cannot be read. -/
  | dictionarySheet {book : Workbook} {fault : Fault}
      (hbook : Workbook.ofPath files workbook = .ok book)
      (h : book.sheet files Dictionary.sheetName = .error fault)
  /-- The sheets are there, but no document is made of them. -/
  | generation {book : Workbook} {t dictionary : Table} {fault : Fault}
      (hbook : Workbook.ofPath files workbook = .ok book)
      (ht : book.sheet files (Schema.sheetName site) = .ok t)
      (hdictionary : book.sheet files Dictionary.sheetName = .ok dictionary)
      (h : (if keysOnly then Schema.keyTemplate t (.ofTable dictionary)
        else Schema.descriptors t (.ofTable dictionary)) = .error fault)

theorem Workbook.schemaSheet_of_sheets {book : Workbook} {t dictionary : Table}
    (ht : book.sheet files (Schema.sheetName site) = .ok t)
    (hdictionary : book.sheet files Dictionary.sheetName = .ok dictionary) :
    book.schemaSheet files site = .ok (t, .ofTable dictionary) := by
  rw [schemaSheet, ht, Workbook.dictionary, hdictionary]
  rfl

theorem Workbook.schemaSheet_of_sheet_error {book : Workbook} {fault : Fault}
    (h : book.sheet files (Schema.sheetName site) = .error fault) :
    book.schemaSheet files site = .error fault := by
  rw [schemaSheet, h]
  rfl

/-- Without a dictionary there is a fault in any case, if not of the dictionary then of the schema
sheet before it. -/
theorem Workbook.schemaSheet_of_dictionary_error {book : Workbook} {fault : Fault}
    (h : book.sheet files Dictionary.sheetName = .error fault) :
    ∃ fault', book.schemaSheet files site = .error fault' := by
  cases ht : book.sheet files (Schema.sheetName site) with
  | error fault' => exact ⟨fault', schemaSheet_of_sheet_error ht⟩
  | ok t =>
    refine ⟨fault, ?_⟩
    rw [schemaSheet, ht, Workbook.dictionary, h]
    rfl

/-- The document of an open workbook. -/
theorem siteDocument_of_book {book : Workbook} (hbook : Workbook.ofPath files workbook = .ok book) :
    siteDocument files workbook site keysOnly =
      if keysOnly then book.keyTemplate files site else book.descriptors files site := by
  rw [siteDocument, hbook]
  cases keysOnly <;> rfl

theorem Workbook.document_of_schemaSheet_error {book : Workbook} {fault : Fault}
    (h : book.schemaSheet files site = .error fault) :
    (if keysOnly then book.keyTemplate files site else book.descriptors files site) =
      .error fault := by
  rw [keyTemplate, descriptors, h]
  cases keysOnly <;> rfl

theorem Workbook.document_of_sheets {book : Workbook} {t dictionary : Table}
    (ht : book.sheet files (Schema.sheetName site) = .ok t)
    (hdictionary : book.sheet files Dictionary.sheetName = .ok dictionary) :
    (if keysOnly then book.keyTemplate files site else book.descriptors files site) =
      if keysOnly then Schema.keyTemplate t (.ofTable dictionary)
      else Schema.descriptors t (.ofTable dictionary) := by
  rw [keyTemplate, descriptors, schemaSheet_of_sheets ht hdictionary]
  cases keysOnly <;> rfl

/-- A site has no document exactly when there is an obstacle. -/
theorem schemaObstacle_iff :
    SchemaObstacle files workbook site keysOnly ↔
      ∃ fault, siteDocument files workbook site keysOnly = .error fault := by
  constructor
  · intro h
    cases h with
    | @workbook fault h =>
      rw [siteDocument, h]
      exact ⟨fault, rfl⟩
    | @schemaSheet book fault hbook h =>
      rw [siteDocument_of_book hbook]
      exact ⟨fault, Workbook.document_of_schemaSheet_error (Workbook.schemaSheet_of_sheet_error h)⟩
    | dictionarySheet hbook h =>
      obtain ⟨fault, h⟩ := Workbook.schemaSheet_of_dictionary_error h
      rw [siteDocument_of_book hbook]
      exact ⟨fault, Workbook.document_of_schemaSheet_error h⟩
    | @generation book t dictionary fault hbook ht hdictionary h =>
      rw [siteDocument_of_book hbook, Workbook.document_of_sheets ht hdictionary]
      exact ⟨fault, h⟩
  · rintro ⟨fault, h⟩
    cases hbook : Workbook.ofPath files workbook with
    | error why => exact .workbook hbook
    | ok book =>
      cases ht : book.sheet files (Schema.sheetName site) with
      | error why => exact .schemaSheet hbook ht
      | ok t =>
        cases hdictionary : book.sheet files Dictionary.sheetName with
        | error why => exact .dictionarySheet hbook hdictionary
        | ok dictionary =>
          rw [siteDocument_of_book hbook, Workbook.document_of_sheets ht hdictionary] at h
          exact .generation hbook ht hdictionary h

/-! ## §2 The run -/

namespace Session

variable {t : Terminal}

/-- A question about the files changes nothing. -/
theorem run_askFiles {α : Type} (ask : Files → Except Fault α) (t : Terminal) :
    (askFiles ask).run t = (ask t.workspace.files, t) := rfl

/-- Without a document nothing is done. -/
theorem run_schema_of_error {fault : Fault}
    (h : siteDocument t.workspace.files workbook site keysOnly = .error fault) :
    (schema workbook site output keysOnly).run t = (.error fault, t) := by
  unfold schema
  cases hbook : Workbook.ofPath t.workspace.files workbook with
  | error why =>
    rw [siteDocument, hbook] at h
    cases h
    exact Work.run_bind_error (by rw [run_askFiles, hbook]) _
  | ok book =>
    rw [siteDocument_of_book hbook] at h
    rw [Work.run_bind_ok (by rw [run_askFiles, hbook]) _]
    exact Work.run_bind_error (by rw [run_askFiles, h]) _

theorem run_save (path : String) (document : Json) (t : Terminal) :
    (save path document).run t =
      ((t.workspace.files.save path document).1,
        { t with workspace :=
          { t.workspace with files := (t.workspace.files.save path document).2 } }) := rfl

/-- A document is saved and then printed. -/
theorem run_schema_of_document {document : Json}
    (h : siteDocument t.workspace.files workbook site keysOnly = .ok document) :
    (schema workbook site output keysOnly).run t =
      (save (Schema.outputPath output site) document >>= line).run t := by
  cases hbook : Workbook.ofPath t.workspace.files workbook with
  | error why =>
    rw [siteDocument, hbook] at h
    cases h
  | ok book =>
    rw [siteDocument_of_book hbook] at h
    unfold schema
    rw [Work.run_bind_ok (by rw [run_askFiles, hbook]) _,
      Work.run_bind_ok (by rw [run_askFiles, h]) _]

/-- What is printed is the text that was saved. -/
theorem run_schema_of_saved {document : Json} {text : String}
    (h : siteDocument t.workspace.files workbook site keysOnly = .ok document)
    (hsave : t.workspace.files.save (Schema.outputPath output site) document =
      (.ok text, files')) :
    (schema workbook site output keysOnly).run t =
      (.ok (), ⟨{ t.workspace with files := files' }, t.printed ++ text ++ "\n"⟩) := by
  rw [run_schema_of_document h, Work.run_bind_ok (by rw [run_save, hsave]) _]
  rfl

/-- A document that cannot be saved is not printed. -/
theorem run_schema_of_not_saved {document : Json} {fault : Fault}
    (h : siteDocument t.workspace.files workbook site keysOnly = .ok document)
    (hsave : t.workspace.files.save (Schema.outputPath output site) document =
      (.error fault, files')) :
    (schema workbook site output keysOnly).run t =
      (.error fault, { t with workspace := { t.workspace with files := files' } }) := by
  rw [run_schema_of_document h]
  exact Work.run_bind_error (by rw [run_save, hsave]) _

end Session

/-! ## §3 The ending -/

/-- How a run of the schema command ends, and the files afterwards. -/
theorem runArguments_schema {arguments : List String} {verbose : Bool}
    (harguments : Invocation.ofArguments arguments =
      .ok ⟨.schema workbook site output keysOnly, verbose⟩) :
    runArguments files arguments =
      (let (outcome, t) := (Session.schema workbook site output keysOnly).run ⟨.ofFiles files, ""⟩
      (.ran .schema t.printed (match outcome with
        | .ok () => none
        | .error fault => some fault), t.workspace.files)) := by
  rw [runArguments, harguments]
  rfl

/-- **The schema command writes once it has all it needs.** A run that meets an obstacle on the way
to the document ends with code one, prints nothing and changes no file. A run that ends with code
zero has written the text of the document into the file of the output path and into no other file,
and has printed that text and the end of a line. -/
theorem schema_run_writes {arguments : List String} {verbose : Bool}
    (harguments : Invocation.ofArguments arguments =
      .ok ⟨.schema workbook site output keysOnly, verbose⟩) {ending : Ending}
    (hrun : runArguments files arguments = (ending, files')) :
    (SchemaObstacle files workbook site keysOnly →
      ending.code = 1 ∧ ending.printed? = some "" ∧ files' = files) ∧
    (files.HasWorkingFolder → ending.code = 0 →
      ∃ document, siteDocument files workbook site keysOnly = .ok document ∧
        FileTree.Written files files' (Schema.outputPath output site)
          (.text (Schema.render document)) ∧
        ending.printed? = some (Schema.render document ++ "\n")) := by
  rw [runArguments_schema harguments] at hrun
  cases hdocument : siteDocument files workbook site keysOnly with
  | error fault =>
    rw [Session.run_schema_of_error (t := ⟨.ofFiles files, ""⟩) hdocument] at hrun
    cases hrun
    exact ⟨fun _ => ⟨rfl, rfl, rfl⟩, fun _ hcode => by cases hcode⟩
  | ok document =>
    refine ⟨fun hobstacle => ?_, fun hwork hcode => ⟨document, rfl, ?_⟩⟩
    · obtain ⟨fault, hfault⟩ := schemaObstacle_iff.mp hobstacle
      cases hdocument.symm.trans hfault
    · -- the document is there, so only the saving can have failed
      cases hsave : files.save (Schema.outputPath output site) document with
      | mk outcome saved =>
        cases outcome with
        | error fault =>
          rw [Session.run_schema_of_not_saved (t := ⟨.ofFiles files, ""⟩) hdocument hsave] at hrun
          cases hrun
          cases hcode
        | ok text =>
          rw [Session.run_schema_of_saved (t := ⟨.ofFiles files, ""⟩) hdocument hsave] at hrun
          cases hrun
          obtain ⟨rfl, hwritten⟩ := FileTree.written_of_save hwork hsave
          exact ⟨hwritten, congrArg some (by rw [String.empty_append])⟩

/-- A tree with the workbook of a site at the top and an empty working directory. -/
def siteTree : Files :=
  .folder [("book.xlsx", .file (.spreadsheet (Workbook.siteSheets Workbook.marginRows))),
    ("tmp", .folder [("", .folder [])])]

theorem ofPath_siteTree :
    Workbook.ofPath siteTree "/book.xlsx" = .ok (Workbook.siteBook Workbook.marginRows) := by
  have hplace : siteTree.placeOf "/book.xlsx" = .taken ["book.xlsx"] :=
    FileTree.resolve_name (by decide) (by decide) (by decide) _ _ _ _
  rw [Workbook.ofPath, hplace]
  rfl

/-- A document can be saved under a new name in the working directory. -/
theorem exists_save_siteTree (document : Json) :
    ∃ files', siteTree.save (Schema.outputPath none "A") document =
      (.ok (Schema.render document), files') := by
  have hpath : Schema.outputPath none "A" = "A.json" := rfl
  have hplace : siteTree.placeOf "A.json" = .free FileTree.workingPlace "A.json" :=
    FileTree.resolve_name (by decide) (by decide) (by decide) _ _ _ _
  have hway : siteTree.makeWay "A.json" = (.ok (), siteTree) := rfl
  rw [hpath, FileTree.save, hway]
  simp only [FileTree.write?, hplace]
  exact ⟨_, rfl⟩

/-- The document of the site: a field with two values, and one without. -/
def marginDocument : Json :=
  .list [.object [("key", .text "color"), ("values", .list [.text "", .text "red"])],
    .object [("key", .text "size")]]

/-- Its text. -/
def marginText : String :=
  "\n".intercalate
    ["[",
      "    \x7b",
      "        \"key\": \"color\",",
      "        \"values\": [",
      "            \"\",",
      "            \"red\"",
      "        ]",
      "    \x7d,",
      "    \x7b",
      "        \"key\": \"size\"",
      "    \x7d",
      "]"]

theorem render_marginDocument : Schema.render marginDocument = marginText := by
  decide +kernel

theorem siteDocument_siteTree :
    siteDocument siteTree "/book.xlsx" "A" false = .ok marginDocument := by
  rw [siteDocument_of_book ofPath_siteTree]
  rfl

/-- The run for the site that the workbook has writes and prints its document; the run for another
site does neither. -/
theorem schema_run_writes_site :
    (∃ ending files', runArguments siteTree ["schema", "/book.xlsx", "A"] = (ending, files') ∧
      siteTree.HasWorkingFolder ∧ ending.code = 0 ∧
      siteDocument siteTree "/book.xlsx" "A" false = .ok marginDocument ∧
      Schema.render marginDocument = marginText ∧
      files'.read? "A.json" = some (.text marginText) ∧
      ending.printed? = some (marginText ++ "\n")) ∧
    SchemaObstacle siteTree "/book.xlsx" "B" true ∧
    ∃ ending, runArguments siteTree ["schema", "/book.xlsx", "B", "--keys-only"] =
      (ending, siteTree) ∧ ending.code = 1 ∧ ending.printed? = some "" := by
  have harguments : Invocation.ofArguments ["schema", "/book.xlsx", "A"] =
      .ok ⟨.schema "/book.xlsx" "A" none false, false⟩ := rfl
  have hothers : Invocation.ofArguments ["schema", "/book.xlsx", "B", "--keys-only"] =
      .ok ⟨.schema "/book.xlsx" "B" none true, false⟩ := rfl
  refine ⟨?_, ?_⟩
  · have hwork : siteTree.HasWorkingFolder := ⟨[], rfl⟩
    -- saving succeeds, so the run ends with code zero
    have hcode : (runArguments siteTree ["schema", "/book.xlsx", "A"]).1.code = 0 := by
      obtain ⟨files', hsave⟩ := exists_save_siteTree marginDocument
      rw [runArguments_schema harguments,
        Session.run_schema_of_saved (t := ⟨.ofFiles siteTree, ""⟩) siteDocument_siteTree hsave]
      rfl
    obtain ⟨document, hdocument, hwritten, hprinted⟩ :=
      (schema_run_writes harguments rfl).2 hwork hcode
    obtain rfl := Except.ok.inj (siteDocument_siteTree.symm.trans hdocument)
    rw [render_marginDocument] at hwritten hprinted
    exact ⟨_, _, rfl, hwork, hcode, siteDocument_siteTree, render_marginDocument, hwritten.read?,
      hprinted⟩
  · have hobstacle : SchemaObstacle siteTree "/book.xlsx" "B" true := by
      have hsheet : ∃ fault, (Workbook.siteBook Workbook.marginRows).sheet siteTree
          (Schema.sheetName "B") = .error fault := ⟨_, rfl⟩
      obtain ⟨fault, hsheet⟩ := hsheet
      exact .schemaSheet ofPath_siteTree hsheet
    obtain ⟨hcode, hprinted, hfiles⟩ := (schema_run_writes hothers rfl).1 hobstacle
    exact ⟨hobstacle, _, Prod.ext rfl hfiles, hcode, hprinted⟩

end MetadataCatalog
