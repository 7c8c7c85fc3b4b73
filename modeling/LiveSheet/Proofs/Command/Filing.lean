import LiveSheet.Command.Host
import LiveSheet.Proofs.Command.Assigning

namespace LiveSheet

/-- The files behind a host: to which file a path leads, if to any, and which bytes are in it.
Several paths may lead to one file. -/
structure Files (σ φ : Type) where
  at? : String → σ → Option φ
  bytes? : φ → σ → Option ByteArray

namespace Files

variable {σ φ : Type}

/-- All files but the one at a path have the same bytes after a change as before, and what was led
to is still led to. -/
structure ChangesOnly (files : Files σ φ) (path : String) (s t : σ) : Prop where
  others : ∀ file other, files.at? path t = some file → other ≠ file →
    files.bytes? other t = files.bytes? other s
  paths : ∀ path file, files.at? path s = some file → files.at? path t = some file

/-- What is documented of reading and writing a text file as a whole. A file is read as the text
that its bytes encode. To write creates a file if there is none, replaces all that is in it, and
does nothing else. -/
structure Documented (files : Files σ φ) (host : Host σ) : Prop where
  reads : ∀ path file text s, files.at? path s = some file →
    files.bytes? file s = some (String.toUTF8 text) → host.read path s = .ok text
  writes : ∀ path text s t, host.write path text s = (.ok (), t) →
    ∃ file, files.at? path t = some file ∧ files.bytes? file t = some text.toUTF8
  changes : ∀ path text s t, host.write path text s = (.ok (), t) → files.ChangesOnly path s t

/-- There is a document in a file of JSON text, and it loads. -/
structure Holds (files : Files σ φ) (s : σ) (path : String) (d : Document) : Prop where
  json : FileFormat.ofPath? path = some .json
  stored : ∃ file text, files.at? path s = some file ∧
    files.bytes? file s = some (String.toUTF8 text) ∧ Document.parse? text = some d
  loads : ∃ sheet, d.restore = .ok sheet

end Files

section

variable {σ φ : Type} {host : Host σ} {files : Files σ φ} {s t : σ} {path name formula : String}
  {d : Document}

theorem Plan.load_runOn (documented : files.Documented host) (holds : files.Holds s path d) :
    ∃ sheet : Sheet, sheet.Storable ∧ Document.ofSheet sheet = d ∧
      ∀ next, (load path next).runOn host s = (next sheet []).runOn host s := by
  obtain ⟨file, text, hfile, hbytes, hparse⟩ := holds.stored
  obtain ⟨sheet, hsheet⟩ := holds.loads
  obtain ⟨hstorable, hdocument⟩ := Document.restore_eq_ok hsheet
  refine ⟨sheet, hstorable, hdocument, fun next => ?_⟩
  have hread : host.read path s = .ok text := documented.reads path file text s hfile hbytes
  have htext : Sheet.ofText text = .ok sheet := by
    rw [Sheet.ofText, hparse]
    exact hsheet
  rw [load, holds.json]
  simp only [runOn, hread, htext]
  rfl

/-- A sheet that is written as JSON text is there as its document, and nothing else has changed. -/
theorem Sheet.Storable.holds_write {sheet : Sheet} (h : sheet.Storable)
    (documented : files.Documented host) (json : FileFormat.ofPath? path = some .json)
    (written : host.write path sheet.toText s = (.ok (), t)) :
    files.Holds t path (Document.ofSheet sheet) ∧ files.ChangesOnly path s t := by
  obtain ⟨file, hfile, hbytes⟩ := documented.writes path sheet.toText s t written
  exact ⟨⟨json, ⟨file, sheet.toText, hfile, hbytes, Document.parse?_render _⟩, h.restores⟩,
    documented.changes path sheet.toText s t written⟩

/-- Saving as JSON text is one write, which decides how it comes out. -/
theorem Plan.save_json (json : FileFormat.ofPath? path = some .json) (host : Host σ) (s : σ)
    (sheet : Sheet) (positions : Positions) (output : String) :
    ∃ report, (save sheet positions path output).runOn host s =
        (report, (host.write path sheet.toText s).2) ∧
      (report.code = 0 ↔ (host.write path sheet.toText s).1 = .ok ()) := by
  rw [save, json]
  simp only [runOn]
  cases (host.write path sheet.toText s).1 with
  | ok done => exact ⟨_, rfl, iff_of_true rfl rfl⟩
  | error detail => exact ⟨_, rfl, iff_of_false Nat.one_ne_zero nofun⟩

/-- Assigning a formula in a file goes on to saving a sheet with the assigned document if the name
is valid, and fails at once if it is not. -/
theorem assignIn_cases (documented : files.Documented host) (holds : files.Holds s path d)
    (name formula : String) (output : Option String) :
    (isValidName name = true ∧ ∃ (sheet : Sheet) (told : String), sheet.Storable ∧
      d.Assigns name formula (Document.ofSheet sheet) ∧
      (assignIn path name formula output).runOn host s =
        (Plan.save sheet [] (output.getD path) told).runOn host s) ∨
      (isValidName name = false ∧ ∃ failure,
        (assignIn path name formula output).runOn host s = (.failure "" failure, s)) := by
  obtain ⟨sheet, hstorable, rfl, hload⟩ := Plan.load_runOn documented holds
  simp only [assignIn, hload]
  rcases hstorable.assign_cases name formula with
    ⟨hvalid, id, c, t, hassign, hcell, ht, hassigns⟩ | ⟨hinvalid, failure, hassign⟩
  · refine .inl ⟨hvalid, t, s!"{c.name} = {c.summary}\n", ht, hassigns, ?_⟩
    simp only [hassign, hcell]
  · refine .inr ⟨hinvalid, failure, ?_⟩
    simp only [hassign]
    rfl

end

/-- If there is a sheet in a file, assigning a formula to a name writes, if it succeeds with an
output for JSON text, by default the same file, a document there in which exactly the record of that
name is changed or added, and changes no other file. It does succeed if the name is valid and the
writing does. A name that is not valid, which is then that of no record, or an output of an unknown
format makes it fail, and all is left as it was. -/
theorem assignIn_exact {σ φ : Type} (host : Host σ) (files : Files σ φ)
    (documented : files.Documented host) (s : σ) (path name formula : String)
    (output : Option String) (d : Document) (holds : files.Holds s path d) :
    let target := output.getD path
    let outcome := (assignIn path name formula output).runOn host s
    (FileFormat.ofPath? target = some .json →
      (outcome.1.code = 0 → ∃ d', d.Assigns name formula d' ∧
        files.Holds outcome.2 target d' ∧ files.ChangesOnly target s outcome.2) ∧
      ((∀ text, (host.write target text s).1 = .ok ()) →
        (outcome.1.code = 0 ↔ isValidName name = true))) ∧
    (isValidName name = false ∨ FileFormat.ofPath? target = none →
      outcome.1.code ≠ 0 ∧ outcome.2 = s) := by
  intro target outcome
  rcases assignIn_cases documented holds name formula output with
    ⟨hvalid, sheet, told, hstorable, hassigns, hrun⟩ | ⟨hinvalid, failure, hrun⟩
  · have hnot : isValidName name ≠ false := by simp [hvalid]
    refine ⟨fun json => ?_, fun unusable => ?_⟩
    · obtain ⟨report, hsave, hcode⟩ := Plan.save_json json host s sheet [] told
      rw [show outcome = _ from hrun.trans hsave]
      refine ⟨fun succeeds => ?_, fun writable => ?_⟩
      · have hwritten : host.write target sheet.toText s =
            (.ok (), (host.write target sheet.toText s).2) :=
          Prod.ext (hcode.mp succeeds) rfl
        exact ⟨_, hassigns, hstorable.holds_write documented json hwritten⟩
      · exact iff_of_true (hcode.mpr (writable sheet.toText)) hvalid
    · have hunknown : FileFormat.ofPath? target = none := unusable.resolve_left hnot
      rw [show outcome = _ from hrun, Plan.save, hunknown]
      exact ⟨Nat.one_ne_zero, rfl⟩
  · rw [show outcome = _ from hrun]
    exact ⟨fun _ => ⟨nofun, fun _ => iff_of_false Nat.one_ne_zero (by simp [hinvalid])⟩,
      fun _ => ⟨Nat.one_ne_zero, rfl⟩⟩

/-- Files in one folder by their names, and no database engine. -/
def Host.folder : Host (String → Option ByteArray) where
  find name s := (s name).isSome
  read name s :=
    match s name with
    | some bytes => (String.fromUTF8? bytes).elim (.error "stream did not contain valid UTF-8") .ok
    | none => .error "No such file or directory (os error 2)"
  write name text s := (.ok (), Function.update s name (some text.toUTF8))
  remove name s :=
    if (s name).isSome then (.ok (), Function.update s name none)
    else (.error "No such file or directory (os error 2)", s)
  query _ s := (none, s)
  insert _ _ _ s := (false, s)

def Files.folder : Files (String → Option ByteArray) String where
  at? name s := if (s name).isSome then some name else none
  bytes? name s := s name

theorem Files.folder_at {name file : String} {s : String → Option ByteArray} :
    folder.at? name s = some file ↔ (s name).isSome = true ∧ name = file := by
  simp [folder]

theorem Files.folder_documented : Files.folder.Documented .folder where
  reads name file text s hfile hbytes := by
    obtain ⟨-, rfl⟩ := folder_at.mp hfile
    have hread : s name = some (String.toUTF8 text) := hbytes
    have htext : String.fromUTF8? (String.toUTF8 text) = some text := dif_pos text.isValidUTF8
    simp only [Host.folder, hread, htext, Option.elim_some]
  writes name text s t h := by
    obtain rfl := (Prod.mk.inj h).2
    exact ⟨name, folder_at.mpr ⟨by simp, rfl⟩, Function.update_self ..⟩
  changes name text s t h := by
    obtain rfl := (Prod.mk.inj h).2
    refine ⟨fun file other hfile hother => ?_, fun path file hfile => ?_⟩
    · obtain ⟨-, rfl⟩ := folder_at.mp hfile
      exact Function.update_of_ne hother ..
    · obtain ⟨hthere, rfl⟩ := folder_at.mp hfile
      refine folder_at.mpr ⟨?_, rfl⟩
      by_cases hpath : path = name
      · simp [hpath]
      · rwa [Function.update_of_ne hpath]

theorem Files.folder_holds {name : String} {s : String → Option ByteArray} {d : Document}
    (json : FileFormat.ofPath? name = some .json) (tag : d.evaluator = Settings.default.evaluator)
    (restorable : Restorable d.cells) (stored : s name = some d.render.toUTF8) :
    folder.Holds s name d := by
  obtain ⟨sheet, hsheet, -⟩ := Document.restoreWith_of_restorable tag restorable
  exact ⟨json, ⟨name, d.render, folder_at.mpr ⟨by simp [stored], rfl⟩, stored,
    Document.parse?_render d⟩, ⟨sheet, hsheet⟩⟩

set_option maxRecDepth 20000 in
/-- Of three records, the first of which waits for the second and the last of which is circular, the
second one is changed in place. -/
theorem assignIn_exact_in_place :
    let before : Document := ⟨"tree", [⟨"total", "price * 2"⟩, ⟨"price", "5"⟩, ⟨"x", "x + 1"⟩]⟩
    let after : Document := ⟨"tree", [⟨"total", "price * 2"⟩, ⟨"price", "7"⟩, ⟨"x", "x + 1"⟩]⟩
    let s := Function.update (fun _ => none) "m.json" (some before.render.toUTF8)
    let outcome := (assignIn "m.json" "price" "7" none).runOn .folder s
    Files.folder.Documented .folder ∧ Files.folder.Holds s "m.json" before ∧
      outcome.1.code = 0 ∧ Files.folder.Holds outcome.2 "m.json" after ∧
      Files.folder.ChangesOnly "m.json" s outcome.2 := by
  intro before after s outcome
  have hjson : FileFormat.ofPath? "m.json" = some .json := by cbv
  have hvalid : isValidName "price" = true := by cbv
  have hrestorable : Restorable before.cells := by
    refine ⟨?_, by simp [before]⟩
    simp only [before, List.forall_mem_cons, List.not_mem_nil, false_imp_iff, implies_true,
      and_true]
    exact ⟨by cbv, hvalid, by cbv⟩
  have hholds : Files.folder.Holds s "m.json" before :=
    Files.folder_holds hjson rfl hrestorable (Function.update_self ..)
  have hassigned : before.assigned "price" "7" = after := by
    simp [before, after, Document.assigned]
  clear_value before after s
  obtain ⟨hwrites, hsucceeds⟩ :=
    (assignIn_exact .folder .folder Files.folder_documented s "m.json" "price" "7" none before
      hholds).1 hjson
  have hcode : outcome.1.code = 0 := (hsucceeds fun _ => rfl).mpr hvalid
  obtain ⟨d', hassigns, hafter, hchanges⟩ := hwrites hcode
  obtain rfl := (hassigns.eq_assigned hrestorable.distinct).trans hassigned
  exact ⟨Files.folder_documented, hholds, hcode, hafter, hchanges⟩

end LiveSheet
