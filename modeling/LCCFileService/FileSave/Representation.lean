import LCCFileService.FileSave.References
import LCCFileService.FileSave.Sweep

/-!
# The representation of the stored contents

A store represents its contents when every row's file holds a content with the row's MD5,
the rows with one MD5 share their path, and every file at a path the service gives to
stored files is the file of a row.  The application edits files at other paths only.

In a run from empty tables every state represents its contents exactly when no save orphans
a file: it does when it replaces the only row of another MD5, or when the key is the empty
string and the content is new.
-/

namespace LCCFileService

open LCFileSaveService LCFileDB

namespace Platform

/-- The service may place a stored file at this path. -/
def InStore (P : Platform) (path : String) : Prop :=
  ∃ saveDir c source, P.storePath saveDir (P.md5 c) source = path

/-- MD5s and the paths of stored files are not empty, and the path of a stored file tells
its MD5. -/
structure NamesFiles (P : Platform) : Prop where
  md5_ne : ∀ c, P.md5 c ≠ ""
  path_ne : ∀ saveDir c source, P.storePath saveDir (P.md5 c) source ≠ ""
  md5_eq : ∀ saveDir c source saveDir' c' source',
    P.storePath saveDir (P.md5 c) source = P.storePath saveDir' (P.md5 c') source' →
      P.md5 c = P.md5 c'

/-- A stored file with the MD5 may be placed at the path. -/
def Places (P : Platform) (md5 path : String) : Prop :=
  ∃ saveDir c source, P.md5 c = md5 ∧ P.storePath saveDir md5 source = path

theorem Places.inStore {P : Platform} {md5 path : String} (h : P.Places md5 path) :
  P.InStore path
  := by
  obtain ⟨saveDir, c, source, rfl, hpath⟩ := h
  exact ⟨saveDir, c, source, hpath⟩

theorem places (P : Platform) (saveDir : String) (c : Bytes) (source : String) :
  P.Places (P.md5 c) (P.storePath saveDir (P.md5 c) source)
  := ⟨saveDir, c, source, rfl, rfl⟩

theorem NamesFiles.unique {P : Platform} (hP : P.NamesFiles) {md5 md5' path : String}
    (h : P.Places md5 path) (h' : P.Places md5' path) :
  md5 = md5'
  := by
  obtain ⟨saveDir, c, source, rfl, rfl⟩ := h
  obtain ⟨saveDir', c', source', rfl, hpath⟩ := h'
  apply hP.md5_eq _ _ _ _ _ _ hpath.symm

theorem NamesFiles.ne {P : Platform} (hP : P.NamesFiles) {md5 path : String}
    (h : P.Places md5 path) :
  md5 ≠ "" ∧ path ≠ ""
  := by
  obtain ⟨saveDir, c, source, rfl, rfl⟩ := h
  exact ⟨hP.md5_ne c, hP.path_ne _ _ _⟩

end Platform

/-- An operation of the file store, or an edit of a file that is not in the store. -/
inductive StoreEvent (P : Platform) where
  | op (op : StoreOp)
  | edit (path : String) (content : Option Bytes) (outside : ¬ P.InStore path)

namespace StoreEvent

/-- The store after the event. -/
def step (P : Platform) (names : ColumnNames) (s : Store) : StoreEvent P → Store
  | .op o => o.exec P names s
  | .edit path content _ => { s with disk := Function.update s.disk path content }

end StoreEvent

namespace Store

/-- Every row's file holds a content with the row's MD5, rows with one MD5 share their path,
and every file in the store is the file of a row. -/
structure Represents (P : Platform) (s : Store) : Prop where
  stored : ∀ r ∈ s.files.rows, ∃ c, s.disk r.filePath = some c ∧ P.md5 c = r.md5
  shared : ∀ r ∈ s.files.rows, ∀ r' ∈ s.files.rows, r.md5 = r'.md5 → r.filePath = r'.filePath
  placed : ∀ path, P.InStore path → s.disk.has path → ∃ r ∈ s.files.rows, r.filePath = path

/-- There are no tags, and every row has a path where its MD5 may be placed. -/
structure WellPlaced (P : Platform) (s : Store) : Prop where
  tags : s.tags.rows = []
  places : ∀ r ∈ s.files.rows, P.Places r.md5 r.filePath

/-- The operation is a save of an existing file after which a stored file has no row: the save
gets the empty key for a new content, or replaces the only row of another MD5. -/
def Orphans (P : Platform) (s : Store) : StoreOp → Prop
  | .save _ _ sourcePath key tag _ _ _ =>
      ∃ c, sourcePath.bind s.disk = some c ∧ lengthOf tag ≠ 0 ∧
        if key.getD (P.md5 c) = "" then ∀ r ∈ s.files.rows, r.md5 ≠ P.md5 c
        else ∃ r ∈ s.files.rows, r.key = key.getD (P.md5 c) ∧ r.md5 ≠ P.md5 c ∧
          ∀ r' ∈ s.files.rows, r'.md5 = r.md5 → r' = r
  | _ => False

/-- The event is a save that orphans a stored file. -/
def OrphansBy {P : Platform} (s : Store) : StoreEvent P → Prop
  | .op op => s.Orphans P op
  | .edit _ _ _ => False

variable {P : Platform} {names : ColumnNames} {s : Store}

/-- Rows with one path have one MD5. -/
theorem WellPlaced.md5_eq (h : s.WellPlaced P) (hP : P.NamesFiles) {r r' : LCFileMRow}
    (hr : r ∈ s.files.rows) (hr' : r' ∈ s.files.rows) (hpath : r.filePath = r'.filePath) :
  r.md5 = r'.md5
  := by
  apply hP.unique (h.places r hr)
  rw [hpath]
  apply h.places r' hr'

/-! ### Lookups and deletions -/

/-- Without tags a lookup deletes the rows with the MD5 it finds, and the file found. -/
theorem call_of_stored (hw : s.WellPlaced P) (h : s.Represents P) (l : Lookup) :
  (l.call names s).2 = match l.find s with
    | none => s
    | some r => { s with
        files := s.files.deleteWhere (fun r' => r'.md5 = r.md5)
        disk := s.disk.remove r.filePath }
  := by
  rw [Lookup.call_eq_confirm]
  cases hfind : l.find s with
  | none =>
      have htags : s.tags.deleteWhere (fun _ => true) = s.tags := by
        apply Table.deleteWhere_eq_self.mpr
        simp [hw.tags]
      rw [confirm_none, htags]
  | some r =>
      obtain ⟨c, hc, -⟩ := h.stored r (Lookup.mem_of_find hfind)
      rw [confirm_untagged (by simp [Disk.has, hc]) (by simp [Store.ReadsTag, hw.tags])]

/-- A lookup keeps the representation. -/
theorem Represents.lookup (h : s.Represents P) (hP : P.NamesFiles) (hw : s.WellPlaced P)
    (l : Lookup) :
  (l.call names s).2.Represents P
  := by
  rw [call_of_stored hw h]
  cases hfind : l.find s with
  | none => apply h
  | some r =>
      have hr := Lookup.mem_of_find hfind
      have hrows : ∀ r', r' ∈ (s.files.deleteWhere (fun r' => r'.md5 = r.md5)).rows ↔
          r' ∈ s.files.rows ∧ r'.md5 ≠ r.md5 := by
        intro r'
        rw [Table.mem_deleteWhere]
        simp
      constructor
      · intro r' hr'
        obtain ⟨hmem, hne⟩ := (hrows r').mp hr'
        have hpath : r'.filePath ≠ r.filePath := fun heq => hne (hw.md5_eq hP hmem hr heq)
        simp only [Disk.remove_apply, if_neg hpath]
        apply h.stored r' hmem
      · intro r' hr' r'' hr''
        apply h.shared r' ((hrows r').mp hr').1 r'' ((hrows r'').mp hr'').1
      · intro path hin hhas
        simp only [Disk.has, Disk.remove_apply] at hhas
        split at hhas
        · cases hhas
        · next hne =>
            obtain ⟨r', hr', rfl⟩ := h.placed path hin hhas
            have hmd5 : r'.md5 ≠ r.md5 := fun heq => hne (h.shared r' hr' r hr heq)
            exact ⟨r', (hrows r').mpr ⟨hr', hmd5⟩, rfl⟩

/-- Without tags the sweep, if its query is accepted, deletes all rows and their files. -/
theorem Represents.sweep_all (h : s.Represents P) (hw : s.WellPlaced P)
    (htakes : names.takesGroup) (p : LCFileTagMRow → Bool) :
  (pDeleteNoTagFile names { s with tags := s.tags.deleteWhere p }).Represents P
  := by
  have hswept : ∀ md5, Swept names (s.tags.deleteWhere p) md5 := by
    intro md5
    use htakes
    intro t ht
    rw [Table.mem_deleteWhere, hw.tags] at ht
    cases ht.1
  have hfiles : (pDeleteNoTagFile names { s with tags := s.tags.deleteWhere p }).files.rows
      = [] := by
    rw [files_pDeleteNoTagFile]
    simp [hswept]
  constructor
  · intro r hr
    rw [hfiles] at hr
    cases hr
  · intro r hr
    rw [hfiles] at hr
    cases hr
  · intro path hin hhas
    simp only [Disk.has, disk_pDeleteNoTagFile] at hhas
    split at hhas
    · cases hhas
    · next hnone =>
        obtain ⟨r, hr, rfl⟩ := h.placed path hin hhas
        apply absurd ⟨r, hr, hswept r.md5, rfl⟩ hnone

/-- Without tags the sweep keeps the representation. -/
theorem Represents.sweep (h : s.Represents P) (hw : s.WellPlaced P) (p : LCFileTagMRow → Bool) :
  (pDeleteNoTagFile names { s with tags := s.tags.deleteWhere p }).Represents P
  := by
  cases htakes : names.takesGroup with
  | true => apply h.sweep_all hw htakes
  | false =>
      rw [pDeleteNoTagFile_eq_self htakes]
      exact ⟨h.stored, h.shared, h.placed⟩

/-! ### Saves -/

/-- What a save does: the row of the key, if the key is not empty, names the path, which holds
a content with the MD5, and nothing else in the store changes. -/
structure Placement (P : Platform) (s s' : Store) (key md5 path : String) : Prop where
  files : s'.files = if key = "" then s.files else s.files.insertOrReplace ⟨key, md5, path⟩
  file : ∃ c, s'.disk path = some c ∧ P.md5 c = md5
  other : ∀ path', P.InStore path' → path' ≠ path → s'.disk path' = s.disk path'
  places : P.Places md5 path
  shared : ∀ r ∈ s.files.rows, r.md5 = md5 → r.filePath = path

/-- The path a copy gives to a content is the path of the rows with its MD5, and of the store
only this path changes. -/
theorem Represents.pCopyFile (h : s.Represents P) (hP : P.NamesFiles) (hw : s.WellPlaced P)
    (saveDir : String) (now : Int) {source : String} {c : Bytes}
    (hsource : s.disk source = some c) (deleteSource : Bool) :
  ∃ path disk, pCopyFile P { saveDir, now } source (P.md5 c) deleteSource s = (some path, disk) ∧
    (∃ c', disk path = some c' ∧ P.md5 c' = P.md5 c) ∧
    (∀ path', P.InStore path' → path' ≠ path → disk path' = s.disk path') ∧
    P.Places (P.md5 c) path ∧ ∀ r ∈ s.files.rows, r.md5 = P.md5 c → r.filePath = path
  := by
  cases hold : lcGetFileWithMd5 (some (P.md5 c)) s.files with
  | some old =>
      have hmem : old ∈ s.files.rows := List.mem_of_find?_eq_some hold
      have hmd5 : old.md5 = P.md5 c := by simpa using List.find?_some hold
      obtain ⟨c', hc', hmd5'⟩ := h.stored old hmem
      refine ⟨old.filePath, s.disk, ?_, ⟨c', hc', hmd5'.trans hmd5⟩, fun _ _ _ => rfl, ?_, ?_⟩
      · simp [LCFileSaveService.pCopyFile, hold, Option.filter, Disk.has, hc']
      · rw [← hmd5]
        apply hw.places old hmem
      · intro r hr hr'
        apply h.shared r hr old hmem (hr'.trans hmd5.symm)
  | none =>
      have hnew : ∀ r ∈ s.files.rows, r.md5 ≠ P.md5 c := by
        intro r hr
        simpa using List.find?_eq_none.mp hold r hr
      have hplaces := P.places saveDir c source
      -- a file in the store is the file of a row, and its content has the row's MD5
      have hfree : s.disk.has (P.storePath saveDir (P.md5 c) source) = false := by
        by_contra hhas
        obtain ⟨r, hr, hpath⟩ := h.placed _ hplaces.inStore (by simpa using hhas)
        apply hnew r hr
        apply hP.unique (hw.places r hr)
        rw [hpath]
        apply hplaces
      have houtside : ¬ P.InStore source := by
        intro hin
        obtain ⟨r, hr, rfl⟩ := h.placed source hin (by simp [Disk.has, hsource])
        obtain ⟨c', hc', hmd5⟩ := h.stored r hr
        rw [hsource] at hc'
        cases hc'
        apply hnew r hr hmd5.symm
      have hne : P.storePath saveDir (P.md5 c) source ≠ source := by
        intro heq
        rw [heq] at hplaces
        apply houtside hplaces.inStore
      have hcopy : ∀ path', P.InStore path' → path' ≠ P.storePath saveDir (P.md5 c) source →
          s.disk.copy source (P.storePath saveDir (P.md5 c) source) path' = s.disk path' := by
        intro path' _ hpath'
        rw [Disk.copy_apply, if_neg hpath']
      cases deleteSource with
      | false =>
          refine ⟨_, s.disk.copy source (P.storePath saveDir (P.md5 c) source), ?_, ⟨c, ?_, rfl⟩,
            hcopy, hplaces, fun r hr hmd5 => absurd hmd5 (hnew r hr)⟩
          · simp [LCFileSaveService.pCopyFile, hold, hfree]
          · rw [Disk.copy_apply, if_pos rfl, hsource]
      | true =>
          refine ⟨_, s.disk.move source (P.storePath saveDir (P.md5 c) source), ?_, ⟨c, ?_, rfl⟩,
            ?_, hplaces, fun r hr hmd5 => absurd hmd5 (hnew r hr)⟩
          · simp [LCFileSaveService.pCopyFile, hold, hfree]
          · rw [Disk.move, Disk.remove_apply, if_neg hne, Disk.copy_apply, if_pos rfl, hsource]
          · intro path' hin hpath'
            have hne' : path' ≠ source := fun heq => houtside (heq ▸ hin)
            rw [Disk.move, Disk.remove_apply, if_neg hne', hcopy path' hin hpath']

/-- A save of an existing file under a tag places its content. -/
theorem Represents.placement (h : s.Represents P) (hP : P.NamesFiles) (hw : s.WellPlaced P)
    (saveDir : String) (now : Int) {sourcePath tag : Option String} {c : Bytes}
    (hsource : sourcePath.bind s.disk = some c) (htag : lengthOf tag ≠ 0)
    (key group : Option String) (time : Int) (deleteSource : Bool) :
  ∃ path, Placement P s
    ((StoreOp.save saveDir now sourcePath key tag group time deleteSource).exec P names s)
    (key.getD (P.md5 c)) (P.md5 c) path
  := by
  obtain ⟨source, rfl, hcontent⟩ := Option.bind_eq_some_iff.mp hsource
  obtain ⟨path, disk, hcopy, hfile, hother, hplaces, hshared⟩ :=
    h.pCopyFile hP hw saveDir now hcontent deleteSource
  have hmd5 : Md5Tools.fileMD5WithPath P.md5 source s.disk = P.md5 c := by
    simp [Md5Tools.fileMD5WithPath, hcontent]
  have hhas : s.disk.has source = true := by simp [Disk.has, hcontent]
  obtain ⟨hne, hne'⟩ := hP.ne hplaces
  have hsave :
      (StoreOp.save saveDir now (some source) key tag group time deleteSource).exec P names s
      = { s with
          files := if key.getD (P.md5 c) = "" then s.files
            else s.files.insertOrReplace ⟨key.getD (P.md5 c), P.md5 c, path⟩
          disk := disk } := by
    simp only [StoreOp.exec, lcSaveFileFrom, Option.filter, hhas, if_true, htag, if_false, hmd5,
      hcopy, StoreOp.lcSaveTag_untagged, lcSaveFile, String.length_eq_zero_iff, hne, hne',
      false_or, or_false]
    split
    · rfl
    · rfl
  rw [hsave]
  exact ⟨path, rfl, hfile, hother, hplaces, hshared⟩

/-- The rows after a save with a key. -/
theorem Placement.mem_files {s' : Store} {key md5 path : String}
    (hp : Placement P s s' key md5 path) (hkey : key ≠ "") {r : LCFileMRow} :
  r ∈ s'.files.rows ↔ r = ⟨key, md5, path⟩ ∨ r ∈ s.files.rows ∧ r.key ≠ key
  := by
  rw [hp.files, if_neg hkey, Table.mem_insertOrReplace]
  simp [KeysDiffer, LCFileMRow.primary, eq_comm]

/-- After a save without a key there is a row for the content exactly when there was one. -/
theorem Placement.represents_iff_of_empty {s' : Store} {md5 path : String}
    (hp : Placement P s s' "" md5 path) (h : s.Represents P) (hP : P.NamesFiles)
    (hw : s.WellPlaced P) :
  s'.Represents P ↔ ∃ r ∈ s.files.rows, r.md5 = md5
  := by
  have hfiles : s'.files = s.files := by rw [hp.files, if_pos rfl]
  constructor
  · intro h'
    obtain ⟨c, hc, -⟩ := hp.file
    obtain ⟨r, hr, hpath⟩ := h'.placed path hp.places.inStore (by simp [Disk.has, hc])
    rw [hfiles] at hr
    use r, hr
    apply hP.unique (hw.places r hr)
    rw [hpath]
    apply hp.places
  · rintro ⟨r₀, hr₀, hmd5₀⟩
    have hpath₀ := hp.shared r₀ hr₀ hmd5₀
    constructor
    · intro r hr
      rw [hfiles] at hr
      by_cases hpath : r.filePath = path
      · obtain ⟨c, hc, hmd5⟩ := hp.file
        rw [hpath]
        use c, hc
        rw [hmd5, ← hmd5₀]
        apply hw.md5_eq hP hr₀ hr (hpath₀.trans hpath.symm)
      · rw [hp.other _ (hw.places r hr).inStore hpath]
        apply h.stored r hr
    · intro r hr r' hr'
      rw [hfiles] at hr hr'
      apply h.shared r hr r' hr'
    · intro path' hin hhas
      rw [hfiles]
      by_cases hpath : path' = path
      · exact ⟨r₀, hr₀, hpath₀.trans hpath.symm⟩
      · rw [Disk.has, hp.other path' hin hpath] at hhas
        apply h.placed path' hin hhas

/-- After a save with a key every content has a row exactly when the row the key had, if it
had one of another MD5, was not the only one of its MD5. -/
theorem Placement.represents_iff_of_key {s' : Store} {key md5 path : String}
    (hp : Placement P s s' key md5 path) (h : s.Represents P) (hP : P.NamesFiles)
    (hw : s.WellPlaced P) (hkey : key ≠ "") :
  s'.Represents P ↔ ∀ r ∈ s.files.rows, r.key = key → r.md5 ≠ md5 →
    ∃ r' ∈ s.files.rows, r'.md5 = r.md5 ∧ r' ≠ r
  := by
  have hmem := fun r => hp.mem_files hkey (r := r)
  have hpath : ∀ r ∈ s.files.rows, r.md5 ≠ md5 → r.filePath ≠ path := by
    intro r hr hne heq
    apply hne
    apply hP.unique (hw.places r hr)
    rw [heq]
    apply hp.places
  constructor
  · intro h' r hr hrkey hne
    obtain ⟨c, hc, -⟩ := h.stored r hr
    have hin := (hw.places r hr).inStore
    rw [← hp.other _ hin (hpath r hr hne)] at hc
    obtain ⟨r', hr', hpath'⟩ := h'.placed r.filePath hin (by simp [Disk.has, hc])
    rcases (hmem r').mp hr' with rfl | ⟨hold, hkey'⟩
    · apply absurd hpath'.symm (hpath r hr hne)
    · refine ⟨r', hold, hw.md5_eq hP hold hr hpath', ?_⟩
      rintro rfl
      apply hkey' hrkey
  · intro hothers
    obtain ⟨c, hc, hmd5⟩ := hp.file
    constructor
    · intro r hr
      rcases (hmem r).mp hr with rfl | ⟨hold, -⟩
      · exact ⟨c, hc, hmd5⟩
      · by_cases hne : r.md5 = md5
        · rw [hp.shared r hold hne, hne]
          exact ⟨c, hc, hmd5⟩
        · rw [hp.other _ (hw.places r hold).inStore (hpath r hold hne)]
          apply h.stored r hold
    · intro r hr r' hr' heq
      rcases (hmem r).mp hr with rfl | ⟨hold, -⟩
      · rcases (hmem r').mp hr' with rfl | ⟨hold', -⟩
        · rfl
        · apply (hp.shared r' hold' heq.symm).symm
      · rcases (hmem r').mp hr' with rfl | ⟨hold', -⟩
        · apply hp.shared r hold heq
        · apply h.shared r hold r' hold' heq
    · intro path' hin hhas
      by_cases hpath' : path' = path
      · exact ⟨_, (hmem _).mpr (Or.inl rfl), hpath'.symm⟩
      · rw [Disk.has, hp.other path' hin hpath'] at hhas
        obtain ⟨r, hr, rfl⟩ := h.placed path' hin hhas
        by_cases hrkey : r.key = key
        · -- the row is replaced: another row of its MD5 has the same path
          have hne : r.md5 ≠ md5 := fun heq => hpath' (hp.shared r hr heq)
          obtain ⟨r', hr', heq, hne'⟩ := hothers r hr hrkey hne
          refine ⟨r', (hmem r').mpr (Or.inr ⟨hr', ?_⟩), h.shared r' hr' r hr heq⟩
          intro hr'key
          apply hne'
          apply s.files.eq_of_key hr' hr (congrArg some hr'key) (congrArg some hrkey)
        · exact ⟨r, (hmem r).mpr (Or.inr ⟨hr, hrkey⟩), rfl⟩

/-! ### Runs -/

/-- A path a copy gives to a content is one where its MD5 may be placed. -/
theorem WellPlaced.places_pCopyFile (h : s.WellPlaced P) (e : Surroundings) (source : String)
    (c : Bytes) (deleteSource : Bool) {path : String}
    (hpath : (LCFileSaveService.pCopyFile P e source (P.md5 c) deleteSource s).1 = some path) :
  P.Places (P.md5 c) path
  := by
  have hnew : P.storePath e.saveDir (P.md5 c) source = path → P.Places (P.md5 c) path := by
    rintro rfl
    apply P.places
  rw [LCFileSaveService.pCopyFile] at hpath
  simp only at hpath
  split at hpath
  · next old hold =>
      obtain ⟨hfind, -⟩ := Option.filter_eq_some_iff.mp hold
      have hmd5 : old.md5 = P.md5 c := by simpa using List.find?_some hfind
      rw [← hmd5, ← Option.some.inj hpath]
      apply h.places old (List.mem_of_find?_eq_some hfind)
  · split at hpath
    · apply hnew (Option.some.inj hpath)
    · split at hpath
      · split at hpath
        · apply hnew (Option.some.inj hpath)
        · cases hpath
      · split at hpath
        · apply hnew (Option.some.inj hpath)
        · cases hpath

/-- A row after saving a file object is an old row or the object's. -/
theorem mem_lcSaveFile {writes : Bool} {fileM : LCFileM} {files : FileTable} {r : LCFileMRow}
    (hr : r ∈ (lcSaveFile writes fileM files).2.rows) :
  r ∈ files.rows ∨ some r.md5 = fileM.md5 ∧ some r.filePath = fileM.filePath
  := by
  unfold lcSaveFile at hr
  split at hr
  · next hkey hmd5 hpath =>
      split at hr
      · apply Or.inl hr
      · split at hr
        · rcases Table.mem_insertOrReplace.mp hr with rfl | ⟨hold, -⟩
          · apply Or.inr ⟨hmd5.symm, hpath.symm⟩
          · apply Or.inl hold
        · apply Or.inl hr
  · apply Or.inl hr

/-- A row after a save of a file is an old row, or has a path where its MD5 may be placed. -/
theorem WellPlaced.places_save (h : s.WellPlaced P) (e : Surroundings)
    (sourcePath key tag group : Option String) (time : Int) (deleteSource : Bool)
    {r : LCFileMRow}
    (hr : r ∈
      (lcSaveFileFrom P names e sourcePath key tag group time deleteSource s).2.files.rows) :
  P.Places r.md5 r.filePath
  := by
  unfold lcSaveFileFrom at hr
  split at hr
  · apply h.places r hr
  · next source hsource =>
      split at hr
      · apply h.places r hr
      · rcases mem_lcSaveFile hr with hold | ⟨hmd5, hpath⟩
        · apply h.places r hold
        · obtain ⟨c, hc⟩ := Disk.has_iff.mp (Option.filter_eq_some_iff.mp hsource).2
          simp only [Md5Tools.fileMD5WithPath, hc, Option.some.injEq] at hmd5 hpath
          rw [hmd5]
          apply h.places_pCopyFile e source c deleteSource hpath.symm

/-- A lookup adds no rows. -/
theorem mem_call {l : Lookup} {r : LCFileMRow} (hr : r ∈ (l.call names s).2.files.rows) :
  r ∈ s.files.rows
  := by
  rw [Lookup.call_eq_confirm] at hr
  cases hfind : l.find s with
  | none =>
      rw [hfind, confirm_none] at hr
      apply hr
  | some r' =>
      rw [hfind] at hr
      by_cases hfile : s.disk.has r'.filePath
      · by_cases htag : s.ReadsTag names r'.md5
        · rw [confirm_tagged hfile htag] at hr
          apply hr
        · rw [confirm_untagged hfile htag] at hr
          apply (Table.mem_deleteWhere.mp hr).1
      · rw [confirm_missing (by simpa using hfile)] at hr
        apply (Table.mem_deleteWhere.mp hr).1

/-- A sweep adds no rows. -/
theorem mem_sweep {tags : TagTable} {r : LCFileMRow}
    (hr : r ∈ (pDeleteNoTagFile names { s with tags := tags }).files.rows) :
  r ∈ s.files.rows
  := by
  rw [files_pDeleteNoTagFile] at hr
  apply (List.mem_filter.mp hr).1

/-- Every event keeps the rows well placed. -/
theorem WellPlaced.step (h : s.WellPlaced P) (e : StoreEvent P) :
  (e.step P names s).WellPlaced P
  := by
  cases e with
  | op op =>
      constructor
      · apply StoreOp.tags_exec P names op h.tags
      · intro r hr
        cases op with
        | save saveDir now sourcePath key tag group time deleteSource =>
            apply h.places_save _ _ _ _ _ _ _ hr
        | lookup l => apply h.places r (mem_call hr)
        | deleteMd5 md5 tag group => apply h.places r (mem_sweep hr)
        | deleteKey key tag group => apply h.places r (mem_sweep hr)
        | deleteFilePath filePath tag group => apply h.places r (mem_sweep hr)
        | deleteAfter group time => apply h.places r (mem_sweep hr)
        | deleteBefore group time => apply h.places r (mem_sweep hr)
  | edit path content outside => exact ⟨h.tags, h.places⟩

/-- A save keeps the representation exactly when it orphans no file. -/
theorem Represents.save_iff (h : s.Represents P) (hP : P.NamesFiles) (hw : s.WellPlaced P)
    (saveDir : String) (now : Int) (sourcePath key tag group : Option String) (time : Int)
    (deleteSource : Bool) :
  ((StoreOp.save saveDir now sourcePath key tag group time deleteSource).exec P names
      s).Represents P ↔
    ¬ s.Orphans P (.save saveDir now sourcePath key tag group time deleteSource)
  := by
  cases hsource : sourcePath.bind s.disk with
  | none =>
      have hfilter : sourcePath.filter s.disk.has = none := by
        rw [Option.filter_eq_none_iff]
        intro source heq hhas
        obtain ⟨c, hc⟩ := Disk.has_iff.mp hhas
        rw [heq, Option.bind_some, hc] at hsource
        cases hsource
      simp only [Orphans, hsource, reduceCtorEq, false_and, exists_false, not_false_eq_true,
        iff_true]
      rw [StoreOp.exec, lcSaveFileFrom, hfilter]
      apply h
  | some c =>
      by_cases htag : lengthOf tag = 0
      · simp only [Orphans, htag, ne_eq, not_true_eq_false, false_and, and_false, exists_false,
          not_false_eq_true, iff_true]
        rw [StoreOp.exec, lcSaveFileFrom]
        split
        · apply h
        · simp only [htag, if_true]
          apply h
      · obtain ⟨path, hp⟩ := h.placement hP hw saveDir now hsource htag key group time deleteSource
        simp only [Orphans, hsource, Option.some.injEq, exists_eq_left', htag, ne_eq,
          not_false_eq_true, true_and]
        by_cases hkey : key.getD (P.md5 c) = ""
        · rw [hkey] at hp
          rw [hp.represents_iff_of_empty h hP hw, if_pos hkey]
          simp
        · rw [hp.represents_iff_of_key h hP hw hkey, if_neg hkey]
          simp only [not_exists, not_and, not_forall, ne_eq, exists_prop]

/-- An event keeps the representation exactly when it orphans no file. -/
theorem Represents.step_iff (h : s.Represents P) (hP : P.NamesFiles) (hw : s.WellPlaced P)
    (e : StoreEvent P) :
  (e.step P names s).Represents P ↔ ¬ s.OrphansBy e
  := by
  cases e with
  | op op =>
      cases op with
      | save saveDir now sourcePath key tag group time deleteSource =>
          apply h.save_iff hP hw saveDir now sourcePath key tag group time deleteSource
      | lookup l => apply iff_of_true (h.lookup hP hw l) id
      | deleteMd5 md5 tag group => apply iff_of_true (h.sweep hw _) id
      | deleteKey key tag group => apply iff_of_true (h.sweep hw _) id
      | deleteFilePath filePath tag group => apply iff_of_true (h.sweep hw _) id
      | deleteAfter group time => apply iff_of_true (h.sweep hw _) id
      | deleteBefore group time => apply iff_of_true (h.sweep hw _) id
  | edit path content outside =>
      apply iff_of_true _ id
      have hne : ∀ path', P.InStore path' → path' ≠ path := by
        rintro path' hin rfl
        apply outside hin
      have hdisk : ∀ path', P.InStore path' →
          Function.update s.disk path content path' = s.disk path' := by
        intro path' hin
        apply Function.update_of_ne (hne path' hin)
      constructor
      · intro r hr
        simp only [StoreEvent.step, hdisk _ (hw.places r hr).inStore]
        apply h.stored r hr
      · apply h.shared
      · intro path' hin hhas
        simp only [StoreEvent.step, Disk.has, hdisk _ hin] at hhas
        apply h.placed path' hin hhas

/-- In a run from empty tables and an empty store, every state represents its contents exactly
when no event orphans a file. -/
theorem throughout_represents_iff (names : ColumnNames) (hP : P.NamesFiles)
    (disk : Disk String Bytes)
    (hempty : ∀ path, P.InStore path → disk path = none) (es : List (StoreEvent P)) :
  Run.Throughout (StoreEvent.step P names) (Represents P) ⟨∅, ∅, disk⟩ es ↔
    Run.Along (StoreEvent.step P names) (fun s e => ¬ s.OrphansBy e) ⟨∅, ∅, disk⟩ es
  := by
  have hw : WellPlaced P ⟨∅, ∅, disk⟩ := by
    constructor
    · rfl
    · intro r hr
      cases hr
  have h : Represents P ⟨∅, ∅, disk⟩ := by
    constructor
    · intro r hr
      cases hr
    · intro r hr
      cases hr
    · intro path hin hhas
      simp [Disk.has, hempty path hin] at hhas
  have hplaced : Run.Throughout (StoreEvent.step P names) (WellPlaced P) ⟨∅, ∅, disk⟩ es :=
    Run.throughout_of_invariant (fun s e hs => hs.step e) hw es
  rw [← Run.throughout_and_iff hplaced]
  apply Run.throughout_iff_along
  · rintro s e ⟨hw, h⟩
    rw [and_iff_right (hw.step e)]
    apply h.step_iff hP hw e
  · exact ⟨hw, h⟩

/-! ### A platform -/

/-- A platform whose stored files have the extension `txt`. -/
def twoMd5s : Platform where
  md5 := fun c => if c = [1] then "a" else "b"
  storePath := fun saveDir md5 _ => saveDir ++ "/" ++ md5 ++ ".txt"

theorem namesFiles_twoMd5s :
  twoMd5s.NamesFiles
  := by
  have hmd5 : ∀ c, twoMd5s.md5 c = "a" ∨ twoMd5s.md5 c = "b" := by
    intro c
    simp only [twoMd5s]
    split
    · apply Or.inl rfl
    · apply Or.inr rfl
  have hlast : ∀ (saveDir saveDir' : String), saveDir ++ "/" ++ "a" ++ ".txt"
      ≠ saveDir' ++ "/" ++ "b" ++ ".txt" := by
    intro saveDir saveDir' h
    have hlists := congrArg (fun p => p.toList.reverse) h
    simp at hlists
  constructor
  · intro c
    rcases hmd5 c with h | h
    · simp [h]
    · simp [h]
  · intro saveDir c source
    simp [twoMd5s]
  · intro saveDir c source saveDir' c' source' h
    rcases hmd5 c with hc | hc
    · rcases hmd5 c' with hc' | hc'
      · rw [hc, hc']
      · rw [hc, hc'] at h
        apply absurd h (hlast _ _)
    · rcases hmd5 c' with hc' | hc'
      · rw [hc, hc'] at h
        apply absurd h.symm (hlast _ _)
      · rw [hc, hc']

/-- Two files, neither of them in the store. -/
def twoFiles : Disk String Bytes := fun path =>
  if path = "x" then some [1] else if path = "y" then some [2] else none

theorem twoFiles_outside (path : String) (h : twoMd5s.InStore path) :
  twoFiles path = none
  := by
  obtain ⟨saveDir, c, source, rfl⟩ := h
  have hlength : ∀ path : String, path.length = 1 →
      twoMd5s.storePath saveDir (twoMd5s.md5 c) source ≠ path := by
    intro path hpath heq
    have := congrArg String.length heq
    have htxt : ".txt".length = 4 := rfl
    simp [twoMd5s, hpath, htxt] at this
  rw [twoFiles, if_neg (hlength "x" rfl), if_neg (hlength "y" rfl)]

/-- Save the content of a file under the key `k`. -/
def saveAtK (path : String) : StoreEvent twoMd5s :=
  .op (.save "/d" 0 (some path) (some "k") (some "t") (some "g") 1 false)

/-- A first save is represented. -/
theorem throughout_represents_saveAtK :
  Run.Throughout (StoreEvent.step twoMd5s .unquoted) (Represents twoMd5s) ⟨∅, ∅, twoFiles⟩
    [saveAtK "x"]
  := by
  apply (throughout_represents_iff .unquoted namesFiles_twoMd5s twoFiles twoFiles_outside _).mpr
  constructor
  · rintro ⟨c, -, -, h⟩
    have hkey : (some "k").getD (twoMd5s.md5 c) ≠ "" := by
      rw [Option.getD_some]
      decide
    rw [if_neg hkey] at h
    obtain ⟨r, hr, -⟩ := h
    cases hr
  · trivial

/-- Saving a second content under the same key leaves the first file without a row. -/
theorem not_throughout_represents_replaced :
  ¬ Run.Throughout (StoreEvent.step twoMd5s .unquoted) (Represents twoMd5s) ⟨∅, ∅, twoFiles⟩
      [saveAtK "x", saveAtK "y"]
  := by
  intro h
  have hin : twoMd5s.InStore "/d/a.txt" := ⟨"/d", [1], "x", by decide⟩
  obtain ⟨r, hr, hpath⟩ := h.final.placed "/d/a.txt" hin (by decide +kernel)
  revert r
  decide +kernel

end Store

end LCCFileService
