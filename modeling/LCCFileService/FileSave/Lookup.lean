import LCCFileService.FileSave.LCFileSaveService

/-!
# Lookups

The three lookups differ in the column they search.  A row is live when its file exists and
its MD5 has a tag.  A lookup is without loss when a search without result leaves the store
as it was, and in every case the live rows keep their row, their tags and their file.  It
is without loss exactly when it is `Harmless`: a search without result finds no tags to
delete, a row whose file is missing shares its MD5 with no live row, and a row for which no
tag is read shares its MD5 and its file with no live row.  Where column names are not quoted
no tag is ever read.
-/

namespace LCCFileService

open LCFileSaveService

/-- A lookup, by one of the columns of the table `LCFileM`. -/
inductive Lookup where
  | md5 (md5 : Option String)
  | key (key : Option String)
  | filePath (filePath : Option String)

namespace Lookup

/-- The row the lookup finds in the table. -/
def find : Lookup → Store → Option LCFileMRow
  | .md5 a, s => LCFileDB.lcGetFileWithMd5 a s.files
  | .key a, s => LCFileDB.lcGetFileWithKey a s.files
  | .filePath a, s => LCFileDB.lcGetFileWithfilePath a s.files

/-- The call of the lookup. -/
def call (names : ColumnNames) : Lookup → Store → Option LCFileMRow × Store
  | .md5 a => lcGetFileWithMd5 names a
  | .key a => lcGetFileWithKey names a
  | .filePath a => lcGetFileWithFilePath names a

theorem call_eq_confirm (names : ColumnNames) (l : Lookup) (s : Store) :
  l.call names s = confirm names (l.find s) s
  := by
  cases l with
  | md5 a => rfl
  | key a => rfl
  | filePath a => rfl

theorem mem_of_find {l : Lookup} {s : Store} {r : LCFileMRow} (h : l.find s = some r) :
  r ∈ s.files.rows
  := by
  cases l with
  | md5 a => apply List.mem_of_find?_eq_some h
  | key a => apply List.mem_of_find?_eq_some h
  | filePath a => apply List.mem_of_find?_eq_some h

end Lookup

/-- The row's file exists and its MD5 has a tag. -/
structure Store.Live (s : Store) (r : LCFileMRow) : Prop where
  mem : r ∈ s.files.rows
  file : s.disk.has r.filePath
  tag : ∃ t ∈ s.tags.rows, t.md5 = r.md5

/-- The MD5 has a tag, and the query for it is accepted. -/
def Store.ReadsTag (names : ColumnNames) (s : Store) (md5 : String) : Prop :=
  names.takesGroup ∧ ∃ t ∈ s.tags.rows, t.md5 = md5

/-- The row `r`, the tags of its MD5 and its file are in `s'` as they are in `s`. -/
structure Store.Kept (s s' : Store) (r : LCFileMRow) : Prop where
  row : r ∈ s'.files.rows
  tags : ∀ t ∈ s.tags.rows, t.md5 = r.md5 → t ∈ s'.tags.rows
  file : s'.disk r.filePath = s.disk r.filePath

/-- Every row is kept where nothing changes. -/
theorem Store.Live.kept {s : Store} {r : LCFileMRow} (h : s.Live r) :
  s.Kept s r
  := ⟨h.mem, fun _ ht _ => ht, rfl⟩

namespace Lookup

/-- A lookup that finds no row returns nil and leaves the store as it was, and every lookup
keeps all live rows. -/
structure WithoutLoss (names : ColumnNames) (l : Lookup) (s : Store) : Prop where
  nothing : l.find s = none → l.call names s = (none, s)
  live : ∀ r, s.Live r → s.Kept (l.call names s).2 r

/-- The condition under which a lookup is without loss, by what it finds. -/
def Harmless (names : ColumnNames) (l : Lookup) (s : Store) : Prop :=
  match l.find s with
  | none => s.tags.rows = []
  | some r =>
      if s.disk.has r.filePath then
        s.ReadsTag names r.md5 ∨
          ∀ r', s.Live r' → r'.md5 ≠ r.md5 ∧ r'.filePath ≠ r.filePath
      else
        ∀ r', s.Live r' → r.md5 ≠ "" ∧ r'.md5 ≠ r.md5

end Lookup

/-! ### What confirming a row does -/

/-- No criterion of `lc_deleteTag:md5:inGroup:` is left by a nil string. -/
@[simp]
theorem LCFileDB.criterion_none (column : String) :
  LCFileDB.criterion none column = true
  := rfl

/-- A string that is not empty is a criterion for the rows that have it. -/
theorem LCFileDB.criterion_some {wanted : String} (h : wanted ≠ "") (column : String) :
  LCFileDB.criterion (some wanted) column = decide (column = wanted)
  := by
  simp [LCFileDB.criterion, lengthOf, h]

/-- Tags are read for an MD5 that has one, where the query is accepted. -/
theorem LCFileDB.lcGetTagWithMd5_eq_nil {names : ColumnNames} {s : Store} {md5 : String} :
  LCFileDB.lcGetTagWithMd5 names (some md5) s.tags = [] ↔ ¬ s.ReadsTag names md5
  := by
  rw [LCFileDB.lcGetTagWithMd5, LCFileDB.selectTags, Store.ReadsTag]
  cases names with
  | quoted => simp [ColumnNames.takesGroup]
  | unquoted => simp [ColumnNames.takesGroup]

namespace LCFileSaveService

variable {names : ColumnNames}

/-- Confirming nil deletes all tags. -/
theorem confirm_none (s : Store) :
  confirm names none s = (none, { s with tags := s.tags.deleteWhere (fun _ => true) })
  := by
  have hfiles : LCFileDB.lcDeleteFileWithMd5 none s.files = s.files := by
    apply Table.deleteWhere_eq_self.mpr
    simp
  have htakes : LCFileDB.takesDelete names none = true := by simp [LCFileDB.takesDelete, lengthOf]
  simp [confirm, pFileExist, hfiles, LCFileDB.lcDeleteTag, htakes]

/-- Confirming a row whose file exists and for whose MD5 a tag is read changes nothing. -/
theorem confirm_tagged {s : Store} {r : LCFileMRow} (hfile : s.disk.has r.filePath)
    (htag : s.ReadsTag names r.md5) :
  confirm names (some r) s = (some r, s)
  := by
  have hne : LCFileDB.lcGetTagWithMd5 names (some r.md5) s.tags ≠ [] := by
    rw [ne_eq, LCFileDB.lcGetTagWithMd5_eq_nil, not_not]
    apply htag
  simp [confirm, pFileExist, hfile, hne]

/-- Confirming a row whose file exists and for whose MD5 no tag is read deletes the rows with
its MD5 and removes its file. -/
theorem confirm_untagged {s : Store} {r : LCFileMRow} (hfile : s.disk.has r.filePath)
    (htag : ¬ s.ReadsTag names r.md5) :
  confirm names (some r) s = (none, { s with
    files := s.files.deleteWhere (fun r' => r'.md5 = r.md5)
    disk := s.disk.remove r.filePath })
  := by
  have hnil := LCFileDB.lcGetTagWithMd5_eq_nil.mpr htag
  simp [confirm, pFileExist, hfile, hnil, LCFileDB.lcDeleteFileWithMd5]

/-- Confirming a row whose file is missing deletes the rows with its MD5, and the tags of
its MD5, which are all tags if the MD5 is empty. -/
theorem confirm_missing {s : Store} {r : LCFileMRow} (hfile : s.disk.has r.filePath = false) :
  confirm names (some r) s = (none, { s with
    files := s.files.deleteWhere (fun r' => r'.md5 = r.md5)
    tags := s.tags.deleteWhere (fun t => LCFileDB.criterion (some r.md5) t.md5) })
  := by
  have htakes : LCFileDB.takesDelete names none = true := by simp [LCFileDB.takesDelete, lengthOf]
  simp [confirm, pFileExist, hfile, LCFileDB.lcDeleteFileWithMd5, LCFileDB.lcDeleteTag, htakes]

end LCFileSaveService

/-! ### The lookups without loss -/

namespace Lookup

variable {names : ColumnNames} {l : Lookup} {s : Store}

/-- A lookup without result is without loss exactly when there are no tags. -/
theorem withoutLoss_none (h : l.find s = none) :
  l.WithoutLoss names s ↔ s.tags.rows = []
  := by
  have hcall : l.call names s = (none, { s with tags := s.tags.deleteWhere (fun _ => true) }) := by
    rw [call_eq_confirm, h, confirm_none]
  constructor
  · rintro ⟨hnothing, -⟩
    have htags := congrArg (fun p => p.2.tags) (hcall.symm.trans (hnothing h))
    apply List.eq_nil_iff_forall_not_mem.mpr
    intro t ht
    have := Table.deleteWhere_eq_self.mp htags t ht
    cases this
  · intro hnil
    have hself : s.tags.deleteWhere (fun _ => true) = s.tags := by
      apply Table.deleteWhere_eq_self.mpr
      simp [hnil]
    rw [hself] at hcall
    constructor
    · intro _
      apply hcall
    · intro r hr
      rw [hcall]
      apply hr.kept

/-- A lookup whose row has a file and a tag that is read is without loss. -/
theorem withoutLoss_tagged {r : LCFileMRow} (h : l.find s = some r)
    (hfile : s.disk.has r.filePath) (htag : s.ReadsTag names r.md5) :
  l.WithoutLoss names s
  := by
  have hcall : l.call names s = (some r, s) := by
    rw [call_eq_confirm, h, confirm_tagged hfile htag]
  constructor
  · intro hnone
    rw [h] at hnone
    cases hnone
  · intro r' hr'
    rw [hcall]
    apply hr'.kept

/-- A lookup whose row has a file and no tag that is read is without loss exactly when no live
row has the same MD5 or the same file. -/
theorem withoutLoss_untagged {r : LCFileMRow} (h : l.find s = some r)
    (hfile : s.disk.has r.filePath) (htag : ¬ s.ReadsTag names r.md5) :
  l.WithoutLoss names s ↔ ∀ r', s.Live r' → r'.md5 ≠ r.md5 ∧ r'.filePath ≠ r.filePath
  := by
  have hcall := confirm_untagged hfile htag
  rw [← h, ← call_eq_confirm] at hcall
  constructor
  · rintro ⟨-, hlive⟩ r' hr'
    have hkept := hlive r' hr'
    rw [hcall] at hkept
    constructor
    · have := (Table.mem_deleteWhere.mp hkept.row).2
      simpa using this
    · intro heq
      have hfile' := hkept.file
      simp only [Disk.remove_apply, heq, if_true] at hfile'
      have := hr'.file
      simp [Disk.has, heq, ← hfile'] at this
  · intro hne
    constructor
    · intro hnone
      rw [h] at hnone
      cases hnone
    · intro r' hr'
      obtain ⟨hmd5, hpath⟩ := hne r' hr'
      rw [hcall]
      constructor
      · apply Table.mem_deleteWhere.mpr
        exact ⟨hr'.mem, by simpa using hmd5⟩
      · intro t ht _
        apply ht
      · simp only [Disk.remove_apply, hpath, if_false]

/-- A lookup whose row's file is missing is without loss exactly when every live row has
another MD5, and there is none if the row's MD5 is empty. -/
theorem withoutLoss_missing {r : LCFileMRow} (h : l.find s = some r)
    (hfile : s.disk.has r.filePath = false) :
  l.WithoutLoss names s ↔ ∀ r', s.Live r' → r.md5 ≠ "" ∧ r'.md5 ≠ r.md5
  := by
  have hcall := @confirm_missing names s r hfile
  rw [← h, ← call_eq_confirm] at hcall
  constructor
  · rintro ⟨-, hlive⟩ r' hr'
    have hkept := hlive r' hr'
    rw [hcall] at hkept
    constructor
    · intro hempty
      obtain ⟨t, ht, hmd5⟩ := hr'.tag
      have := (Table.mem_deleteWhere.mp (hkept.tags t ht hmd5)).2
      simp [LCFileDB.criterion, lengthOf, hempty] at this
    · have := (Table.mem_deleteWhere.mp hkept.row).2
      simpa using this
  · intro hne
    constructor
    · intro hnone
      rw [h] at hnone
      cases hnone
    · intro r' hr'
      obtain ⟨hempty, hmd5⟩ := hne r' hr'
      rw [hcall]
      constructor
      · apply Table.mem_deleteWhere.mpr
        exact ⟨hr'.mem, by simpa using hmd5⟩
      · intro t ht heq
        apply Table.mem_deleteWhere.mpr
        use ht
        rw [LCFileDB.criterion_some hempty, heq]
        simpa using hmd5
      · rfl

/-- A lookup is without loss exactly when it is harmless. -/
theorem withoutLoss_iff_harmless (names : ColumnNames) (l : Lookup) (s : Store) :
  l.WithoutLoss names s ↔ l.Harmless names s
  := by
  cases h : l.find s with
  | none =>
      simp only [Harmless, h]
      apply withoutLoss_none h
  | some r =>
      by_cases hfile : s.disk.has r.filePath
      · by_cases htag : s.ReadsTag names r.md5
        · simp only [Harmless, h, hfile, if_true, htag, true_or, iff_true]
          apply withoutLoss_tagged h hfile htag
        · simp only [Harmless, h, hfile, if_true, htag, false_or]
          apply withoutLoss_untagged h hfile htag
      · simp only [Harmless, h, hfile]
        apply withoutLoss_missing h (by simpa using hfile)

/-- One stored file with a tag. -/
def storeOfOne : Store where
  files := (∅ : FileTable).insertOrReplace ⟨"k", "m", "/store/m.txt"⟩
  tags := (∅ : TagTable).insertOrReplace ⟨some "t", "m", "t", "g", 1⟩
  disk := fun p => if p = "/store/m.txt" then some [1] else none

/-- Looking up a key no row has deletes the tag of the stored file, and looking up the key of
the stored file deletes the file. -/
theorem not_withoutLoss_storeOfOne :
  ¬ (Lookup.key (some "unknown")).WithoutLoss .unquoted storeOfOne ∧
    ¬ (Lookup.key (some "k")).WithoutLoss .unquoted storeOfOne
  := by
  constructor
  · intro h
    have hcall := h.nothing (by decide)
    have htags := congrArg (fun p => p.2.tags.rows) hcall
    revert htags
    decide
  · intro h
    have hlive : storeOfOne.Live ⟨"k", "m", "/store/m.txt"⟩ := by
      constructor
      · decide
      · decide
      · decide
    have hrow := (h.live _ hlive).row
    revert hrow
    decide

end Lookup

end LCCFileService
