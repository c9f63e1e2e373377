import LinearLight.FileWriter
import LinearLight.Proofs.AtomicWrite.Criterion
import LinearLight.Proofs.Delivery.Entries
import LinearLight.Proofs.FileTree.Arrangement
import LinearLight.Proofs.FileTree.Rewriting
import LinearLight.Writer

/-!
# Writing into an opened file changes one file

An artifact written straight into the file that a path leads to goes into that file and nowhere
else, as the way of opening says; or it goes into a new file where the path leads to nothing.
Whatever fails leaves the tree as it was. A path that is no link shows what it would show after the
artifact had been staged and moved there.

## Main definitions

- `Access.rewritten`: what a file holds after a text has been written to it, by the way of opening
- `File.stored`: a file after a text has been written to it, by the position
- `FileTree.Written`: what can come of writing a text to a path

## Main statements

- `FileTree.written_openFile`: files opened and written to
- `FileTree.written_writeThrough`: what comes of writing a text that is not empty
- `FileTree.read?_save`: a path that is no link leads to the file that is saved there
- `Artifact.writeThrough_one_file`: artifacts written straight into files
-/

namespace LinearLight

/-- What a file holds after a text has been written to it, by the way in which it was opened. -/
def Access.rewritten (access : Access) (old text : Bytes) : Bytes :=
  match access with
  | .create => text
  | .append => old ++ text
  | .overwrite => text ++ old.drop text.length
  | .read => old

/-- A file after a text has been written to it at a position. -/
def File.stored (f : File) (position : Nat) (text : Bytes) : File :=
  { f with
    data := f.data.take position ++ text ++ f.data.drop (position + text.length)
    synced := false }

namespace File

variable (f : File) (text : Bytes)

theorem stored_start :
    f.stored 0 text = { f with data := text ++ f.data.drop text.length, synced := false } := by
  simp [stored]

theorem stored_end :
    f.stored f.data.length text = { f with data := f.data ++ text, synced := false } := by
  simp [stored]

theorem stored_empty (mode : Nat) (synced : Bool) :
    stored ⟨[], mode, synced⟩ 0 text = ⟨text, mode, false⟩ := by
  simp [stored]

theorem stored_emptied :
    stored { f with data := [], synced := false } 0 text =
      { f with data := text, synced := false } :=
  stored_empty text f.mode false

end File

namespace FileTree

variable {t opened : FileTree} {p : Path} {access : Access} {handle : Handle} {text : Bytes}

/-- What can come of writing a text to a path. -/
inductive Written (t : FileTree) (p : Path) (access : Access) (text : Bytes) :
    Except IoError Unit → FileTree → Prop where
  | failed (cause : IoError) : Written t p access text (.error cause) t
  | rewritten {after id old} (haccess : access ≠ .read)
      (hfollow : t.follow (access = .create) p = .ok (.node id))
      (h : t.Rewritten after id old
        { old with data := access.rewritten old.data text, synced := false }) :
      Written t p access text (.ok ()) after
  | made {after d name} (haccess : access = .create)
      (hfollow : t.follow true p = .ok (.absent d name))
      (h : t.Made after d name ⟨text, defaultMode, false⟩) : Written t p access text (.ok ()) after

namespace Written

variable {result : Except IoError Unit} {after : FileTree}

theorem of_ok (h : Written t p access text result after) (hok : result = .ok ()) :
    (∃ id old, t.follow (access = .create) p = .ok (.node id) ∧
      t.Rewritten after id old
        { old with data := access.rewritten old.data text, synced := false }) ∨
    ∃ d name, access = .create ∧ t.follow true p = .ok (.absent d name) ∧
      t.Made after d name ⟨text, defaultMode, false⟩ := by
  cases h with
  | failed cause => cases hok
  | rewritten _ hfollow h => exact .inl ⟨_, _, hfollow, h⟩
  | made haccess hfollow h => exact .inr ⟨_, _, haccess, hfollow, h⟩

theorem eq_of_error (h : Written t p access text result after) {cause : IoError}
    (herror : result = .error cause) : after = t := by
  cases h with
  | failed => rfl
  | rewritten => cases herror
  | made => cases herror

/-- A file that is opened to be read takes nothing. -/
theorem exists_error (h : Written t p access text result after) (hread : access = .read) :
    ∃ cause, result = .error cause := by
  cases h with
  | failed cause => exact ⟨cause, rfl⟩
  | rewritten haccess => exact absurd hread haccess
  | made haccess => simp [hread] at haccess

/-- The path that a text has been written to leads to it, when what was there has been emptied. -/
theorem read?_of_create (h : Written t p access text result after) (hok : result = .ok ())
    (hcreate : access = .create) : (after.read? p).map File.data = some text := by
  subst hcreate
  obtain ⟨id, old, hfollow, hrewritten⟩ | ⟨d, name, -, hfollow, hmade⟩ := h.of_ok hok
  · have hpath := hrewritten.path p (follow_not_creating (by simpa using hfollow))
    rw [hpath]
    rfl
  · rw [hmade.path p hfollow]
    rfl

end Written

/-! ### Writing to a handle -/

theorem store_file (id : NodeId) (position : Nat) (text : Bytes) :
    (Handle.file id position).store text t = t.modifyFile id fun f => f.stored position text :=
  rfl

/-- A file takes all that is written to it. -/
theorem receive_of_answers_eq_nil (h : handle.answers = []) (text : Bytes) (t : FileTree) :
    (handle.receive text t).1.outcome = .ok () ∧
      (handle.receive text t).2 = handle.store text t := by
  simp only [Handle.receive, h, accepted_writeTo_nil, and_true]
  cases text <;> rfl

/-- What is no file takes nothing. -/
theorem receive_of_not_file (h : handle = .device ∨ handle = .readOnly) (hne : text ≠ [])
    (t : FileTree) :
    ∃ cause, (handle.receive text t).1.outcome = .error cause ∧
      (handle.receive text t).2 = t := by
  obtain ⟨first, rest, rfl⟩ := List.exists_cons_of_ne_nil hne
  obtain rfl | rfl := h
  · exact ⟨.system .noSpace, rfl, rfl⟩
  · exact ⟨.system .badDescriptor, rfl, rfl⟩

/-! ### Opening -/

/-- A file is opened to take nothing, or so that a text which is written to it comes to stand in it
as the way of opening says. -/
theorem openNode_file {t : FileTree.Sound} {id : NodeId} {old : File} (hold : t.file? id = some old)
    (h : t.openNode id access = .ok (opened, handle)) :
    (opened = t ∧ handle = .readOnly) ∨
      access ≠ .read ∧ handle.answers = [] ∧ ∀ text,
        t.Rewritten (handle.store text opened) id old
          { old with data := access.rewritten old.data text, synced := false } := by
  have hnode := file?_eq_some.mp hold
  cases access with
  | read =>
    simp only [openNode, hnode] at h
    split at h
    · cases h
      exact .inl ⟨rfl, rfl⟩
    · cases h
  | create =>
    simp only [openNode, hnode] at h
    split at h
    · cases h
    · cases h
      refine .inr ⟨nofun, rfl, fun text => ?_⟩
      rw [store_file, modifyFile_modifyFile]
      exact old.stored_emptied text ▸ rewritten_modifyFile id _ hold
  | append =>
    simp only [openNode, hnode] at h
    split at h
    · cases h
    · cases h
      refine .inr ⟨nofun, rfl, fun text => ?_⟩
      rw [store_file]
      exact old.stored_end text ▸ rewritten_modifyFile id _ hold
  | overwrite =>
    simp only [openNode, hnode] at h
    split at h
    · cases h
    · cases h
      refine .inr ⟨nofun, rfl, fun text => ?_⟩
      rw [store_file]
      exact old.stored_start text ▸ rewritten_modifyFile id _ hold

/-- A node that is opened is left as it is and takes nothing, or is a file. -/
theorem openNode_cases {id : NodeId} (h : t.openNode id access = .ok (opened, handle)) :
    (opened = t ∧ (handle = .device ∨ handle = .readOnly)) ∨ ∃ old, t.file? id = some old := by
  cases hnode : t.node? id with
  | none => simp [openNode, hnode] at h
  | some node =>
    cases node with
    | file old => exact .inr ⟨old, file?_eq_some.mpr hnode⟩
    | _ => cases access <;> simp_all [openNode]

/-- What comes of opening the file that a path leads to and writing a text to it. -/
theorem written_openFile {t : FileTree.Sound} (hne : text ≠ [])
    (h : t.openFile p access = .ok (opened, handle)) :
    Written t p access text (handle.receive text opened).1.outcome
      (handle.receive text opened).2 := by
  obtain ⟨target, hfollow, h⟩ := bind_eq_ok.mp h
  cases target with
  | node id =>
    have hrefused : opened = t ∧ (handle = .device ∨ handle = .readOnly) →
        Written t p access text (handle.receive text opened).1.outcome
          (handle.receive text opened).2 := by
      rintro ⟨rfl, hhandle⟩
      obtain ⟨cause, hcause, htree⟩ := receive_of_not_file hhandle hne t
      rw [hcause, htree]
      exact .failed cause
    obtain hother | ⟨old, hold⟩ := openNode_cases h
    · exact hrefused hother
    · obtain ⟨hopened, hhandle⟩ | ⟨haccess, hanswers, hstore⟩ := openNode_file hold h
      · exact hrefused ⟨hopened, .inr hhandle⟩
      · obtain ⟨houtcome, htree⟩ := receive_of_answers_eq_nil hanswers text opened
        rw [houtcome, htree]
        exact .rewritten haccess hfollow (hstore text)
  | absent d name =>
    simp only at h
    split at h
    · next hcreate =>
      cases h
      have hd : t.isDirectory d := t.inTree_of_follow hfollow
      have hanswers : (Handle.file t.fresh 0).answers = [] := rfl
      obtain ⟨houtcome, htree⟩ := receive_of_answers_eq_nil hanswers text
        (t.place d name (.file ⟨[], defaultMode, false⟩))
      rw [houtcome, htree, store_file, modifyFile_place, File.stored_empty]
      have hunused : t.entry? d name = none := entry?_of_follow hfollow
      subst hcreate
      exact .made rfl hfollow (made_place hd hunused _)
    · cases h

theorem writeThrough_of_open_error {e : Errno} (h : t.openFile p access = .error e)
    (text : Bytes) : ∃ cause, t.writeThrough p access text = (.error cause, t) := by
  unfold writeThrough
  split
  · exact ⟨_, rfl⟩
  · rw [h]
    exact ⟨_, rfl⟩

theorem writeThrough_of_open_ok (h : t.openFile p access = .ok (opened, handle)) (text : Bytes) :
    t.writeThrough p access text =
      ((handle.receive text opened).1.outcome, (handle.receive text opened).2) := by
  obtain ⟨target, hfollow, -⟩ := bind_eq_ok.mp h
  obtain ⟨-, hzero, -⟩ := checkPath_eq_ok_iff.mp (follow_eq_ok_iff.mp hfollow).1
  rw [writeThrough, if_neg (by simp [hzero]), h]

/-- What comes of writing a text that is not empty. -/
theorem written_writeThrough {t : FileTree.Sound} (hne : text ≠ []) (p : Path) (access : Access) :
    Written t p access text (t.writeThrough p access text).1 (t.writeThrough p access text).2 := by
  cases hopen : t.openFile p access with
  | error e =>
    obtain ⟨cause, hwritten⟩ := writeThrough_of_open_error hopen text
    rw [hwritten]
    exact .failed cause
  | ok made =>
    rw [writeThrough_of_open_ok hopen]
    exact written_openFile hne hopen

/-! ### The path of a file that is saved -/

/-- A path that is no link leads to the file that is saved there: what is replaced was not on its
way. -/
theorem read?_save {t : FileTree.Sound} {contents : Bytes} {script : List Answer}
    (hok : (t.save p contents script).1 = .ok ())
    (hlink : ∀ d name id target, t.namedEntry? p = some (d, name) → t.entry? d name = some id →
      t.node? id ≠ some (.link target)) :
    (t.save p contents script).2.read? p = some ⟨contents, writtenMode, true⟩ := by
  obtain ⟨d, name, hsaveable, htree⟩ := saveable_of_save hok
  obtain ⟨-, hentry⟩ := t.namedEntry?_of_renameTarget hsaveable.directory hsaveable.target
  have hreplaced := replaced_place hsaveable.isDirectory (fun _ => hsaveable.not_isDirectory)
    ⟨contents, writtenMode, true⟩
  rw [htree]
  obtain ⟨id, -, hid, hfile⟩ := hreplaced.file
  have hlinks := hreplaced.others.keepsLinks fun d' name' id' target hchanged hid' => by
    obtain ⟨rfl, rfl⟩ := hchanged
    exact hlink d' name' id' target hentry hid'
  have htarget := (hreplaced.others.keepsWay hlinks p).renameTarget hreplaced.others
    hsaveable.target
  obtain ⟨hlocate, hlength, -⟩ := renameTarget_eq_ok_iff.mp htarget
  obtain ⟨hcheck, d', left, hleads, hlocation⟩ := locate_eq_ok_iff.mp hlocate
  injection hlocation with hd hlast hslash
  subst hd
  refine read?_eq_some_iff.mpr ⟨id, follow_eq_ok_iff.mpr ⟨hcheck, ?_⟩, hfile⟩
  exact .there ⟨hleads, hlast.symm, rfl, hlength⟩ hid (by simp [file?_eq_some.mp hfile])
    (by simp [← hslash])

end FileTree

/-- An artifact written straight into the file that a path leads to is all that changes: the file
holds it as the way of opening says, whichever name or path is used to look, or a file is made where
there was nothing. A failure, and so any attempt on a file opened to be read, changes nothing. A
path that is no link leads to the same data as after an atomic write. -/
theorem Artifact.writeThrough_one_file (t : FileTree.Sound) (a : Artifact) (tables : Tables)
    (p : Path) (access : Access) :
    let text := a.contents tables
    let written := t.writeThrough p access text
    (written.1 = .ok () →
      (∃ id old, t.follow (access = .create) p = .ok (.node id) ∧
        t.Rewritten written.2 id old
          { old with data := access.rewritten old.data text, synced := false }) ∨
      ∃ d name, access = .create ∧ t.follow true p = .ok (.absent d name) ∧
        t.Made written.2 d name ⟨text, defaultMode, false⟩) ∧
    (∀ cause, written.1 = .error cause → written.2 = t) ∧
    (∀ e, t.openFile p access = .error e → ∃ cause, written = (.error cause, t.toFileTree)) ∧
    (∀ opened handle, access = .read → t.openFile p access = .ok (opened, handle) →
      ∃ cause, (a.writeInto tables handle.answers none).2 = .error (.io cause) ∧
        written = (.error cause, t.toFileTree)) ∧
    (access = .create → written.1 = .ok () →
      (∀ d name id target, t.namedEntry? p = some (d, name) → t.entry? d name = some id →
        t.node? id ≠ some (.link target)) →
      ∀ script, (t.save p text script).1 = .ok () →
        (written.2.read? p).map File.data = some text ∧
          ((t.save p text script).2.read? p).map File.data = some text) := by
  intro text written
  obtain ⟨first, rest, htext⟩ := a.exists_contents_eq_cons tables
  have hne : text ≠ [] := by simp [text, htext]
  have h := FileTree.written_writeThrough (t := t) hne p access
  refine ⟨h.of_ok, fun _ => h.eq_of_error,
    fun _ hopen => FileTree.writeThrough_of_open_error hopen text, ?_, ?_⟩
  · intro opened handle hread hopen
    obtain ⟨cause, hcause⟩ := h.exists_error hread
    have houtcome : (handle.receive text opened).1.outcome = .error cause := by
      rw [FileTree.writeThrough_of_open_ok hopen] at hcause
      exact hcause
    refine ⟨cause, mapError_eq_error.mpr ⟨cause, houtcome, rfl⟩, ?_⟩
    exact Prod.ext hcause (h.eq_of_error hcause)
  · intro hcreate hok hlink script hsave
    exact ⟨h.read?_of_create hok hcreate, by rw [FileTree.read?_save hsave hlink]; rfl⟩

/-- The header is appended to a file with two names, by way of a link to one of them; and it takes
the place of what the file held, as it would after an atomic write. -/
theorem Artifact.writeThrough_one_file_of_links :
    let t := ((FileTree.Sound.bare.after (.putFile ⟨[0x78]⟩ [0x61] 0o600)).after
      (.makeHardLink ⟨[0x79]⟩ ⟨[0x78]⟩)).after (.makeLink ⟨[0x6C]⟩ ⟨[0x78]⟩)
    let text := Artifact.header.contents .zero
    let appended := t.writeThrough ⟨[0x6C]⟩ .append text
    let created := t.writeThrough ⟨[0x78]⟩ .create text
    appended.1 = .ok () ∧
      appended.2.fileAt? (0, [0x79]) = some ⟨0x61 :: text, 0o600, false⟩ ∧
      appended.2.read? ⟨[0x6C]⟩ = some ⟨0x61 :: text, 0o600, false⟩ ∧
      created.1 = .ok () ∧ (t.save ⟨[0x78]⟩ text).1 = .ok () ∧
      (created.2.read? ⟨[0x78]⟩).map File.data = some text ∧
      ((t.save ⟨[0x78]⟩ text).2.read? ⟨[0x78]⟩).map File.data = some text := by
  intro t text appended created
  have htakes {p : Path} {access : Access} {opened : FileTree} {position : Nat}
      (hopen : t.openFile p access = .ok (opened, .file 1 position)) :
      (t.writeThrough p access text).1 = .ok () := by
    rw [FileTree.writeThrough_of_open_ok hopen]
    exact (FileTree.receive_of_answers_eq_nil rfl text opened).1
  have hok : appended.1 = .ok () :=
    htakes (show t.openFile ⟨[0x6C]⟩ .append = .ok (t, .file 1 1) by cbv)
  have hempty : t.openFile ⟨[0x78]⟩ .create =
      .ok (t.modifyFile 1 fun f => { f with data := [], synced := false }, .file 1 0) := by cbv
  have hcreated : created.1 = .ok () := htakes hempty
  have hsave : (t.save ⟨[0x78]⟩ text).1 = .ok () :=
    (FileTree.moveDecides_save (t := t) text (by simp) (by cbv)
      (show t.resolveDirectory _ = .ok 0 by cbv)).eq_ok
      (show t.renameTarget ⟨[0x78]⟩ = .ok (0, [0x78]) by cbv)
  have hlink : ∀ d name id target, t.namedEntry? ⟨[0x78]⟩ = some (d, name) →
      t.entry? d name = some id → t.node? id ≠ some (.link target) := by
    intro d name id target hentry hid
    have hnamed : t.namedEntry? ⟨[0x78]⟩ = some (0, [0x78]) := by cbv
    cases hnamed.symm.trans hentry
    have hid' : t.entry? 0 [0x78] = some 1 := by cbv
    cases hid'.symm.trans hid
    have hnode : t.node? 1 = some (.file ⟨[0x61], 0o600, false⟩) := by cbv
    simp [hnode]
  have hfollow : t.follow false ⟨[0x6C]⟩ = .ok (.node 1) := by cbv
  have hsame := (writeThrough_one_file t .header .zero ⟨[0x78]⟩ .create).2.2.2.2 rfl hcreated
    hlink [] hsave
  obtain ⟨id, old', hfollow', h⟩ | ⟨d, name, hcreate, -⟩ :=
    (writeThrough_one_file t .header .zero ⟨[0x6C]⟩ .append).1 hok
  · cases hfollow.symm.trans hfollow'
    have hold : t.file? 1 = some ⟨[0x61], 0o600, false⟩ := by cbv
    cases hold.symm.trans h.before
    exact ⟨hok, h.named 0 [0x79] (by cbv), h.path _ hfollow, hcreated, hsave, hsame⟩
  · cases hcreate

end LinearLight
