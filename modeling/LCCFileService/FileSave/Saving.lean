import LCCFileService.FileSave.Representation

/-!
# Saves

What a single save does to other tags, to its source, and as a whole.  The row of a tag is
keyed by the tag alone, so a save of a tag that is accepted takes the place of the same tag on
another MD5; where column names are not quoted no save of a tag is accepted.
The source of a save is deleted only when it is moved, which a content that is in the store
already is not.  And the tag of a saved file is not saved, so that a save is complete only
where the MD5 had the tag before.
-/

namespace LCCFileService

open LCFileSaveService LCFileDB

/-! ### Tags -/

/-- The row differs from the tag object in the tag, the group or the MD5. -/
def LCFileTagMRow.DiffersFrom (r : LCFileTagMRow) (tag : LCFileTagM) : Prop :=
  some r.tag ≠ tag.tag ∨ some r.group ≠ tag.group ∨ some r.md5 ≠ tag.md5

instance (r : LCFileTagMRow) (tag : LCFileTagM) : Decidable (r.DiffersFrom tag) :=
  inferInstanceAs (Decidable (_ ∨ _ ∨ _))

/-- The rows that differ from the tag object are still there. -/
def KeepsOtherTags (tag : LCFileTagM) (tags tags' : TagTable) : Prop :=
  ∀ r ∈ tags.rows, r.DiffersFrom tag → r ∈ tags'.rows

instance (tag : LCFileTagM) (tags tags' : TagTable) : Decidable (KeepsOtherTags tag tags tags') :=
  inferInstanceAs (Decidable (∀ r ∈ tags.rows, _ → _))

/-- The row an accepted tag object is stored as. -/
theorem LCFileDB.lcSaveTag_accepted {names : ColumnNames} {writes : Bool} {tag : LCFileTagM}
    {tags : TagTable}
    (h : (lcSaveTag names writes tag tags).1 = true) :
  ∃ r : LCFileTagMRow, (lcSaveTag names writes tag tags).2 = tags.insertOrReplace r ∧
    r.tagId = some r.tag ∧ some r.tag = tag.tag ∧ some r.group = tag.group ∧ some r.md5 = tag.md5
  := by
  obtain ⟨md5, t, group, time⟩ := tag
  revert h
  rw [lcSaveTag]
  split
  · next md5 t group hmd5 ht hgroup =>
      dsimp only at hmd5 ht hgroup
      subst hmd5 ht hgroup
      split
      · rintro ⟨⟩
      · split
        · rintro -
          exact ⟨⟨some t, md5, t, group, time⟩, rfl, rfl, rfl, rfl, rfl⟩
        · rintro ⟨⟩
  · rintro ⟨⟩

/-- Saving a tag that is accepted keeps the rows that differ from it exactly if none of them has
the tag as its `tagId`. -/
theorem keepsOtherTags_iff {names : ColumnNames} {writes : Bool} {tag : LCFileTagM}
    {tags : TagTable}
    (haccepted : (lcSaveTag names writes tag tags).1 = true) :
  KeepsOtherTags tag tags (lcSaveTag names writes tag tags).2 ↔
    ∀ r ∈ tags.rows, r.DiffersFrom tag → r.tagId ≠ tag.tag
  := by
  obtain ⟨saved, hsave, htagId, htag, hgroup, hmd5⟩ := lcSaveTag_accepted haccepted
  have hsaved : ¬ saved.DiffersFrom tag := by
    rintro (hne | hne | hne)
    · apply hne htag
    · apply hne hgroup
    · apply hne hmd5
  have hkeys : ∀ r : LCFileTagMRow,
      KeysDiffer LCFileTagMRow.primary r saved ↔ r.tagId ≠ tag.tag := by
    intro r
    rw [KeysDiffer, LCFileTagMRow.primary, LCFileTagMRow.primary, htagId, ← htag]
    constructor
    · intro h heq
      apply h saved.tag heq rfl
    · intro hne k hk hk'
      rw [hk, hk'] at hne
      apply hne rfl
  rw [KeepsOtherTags, hsave]
  constructor
  · intro h r hr hdiffers
    rcases Table.mem_insertOrReplace.mp (h r hr hdiffers) with rfl | ⟨-, hkey⟩
    · apply absurd hdiffers hsaved
    · apply (hkeys r).mp hkey
  · intro h r hr hdiffers
    apply Table.mem_insertOrReplace.mpr (Or.inr ⟨hr, (hkeys r).mpr (h r hr hdiffers)⟩)

/-- The tag of the one stored file would be lost when another file gets it. -/
example : ¬ KeepsOtherTags ⟨some "n", some "t", some "g", 2⟩ Lookup.storeOfOne.tags
    (lcSaveTag .quoted true ⟨some "n", some "t", some "g", 2⟩ Lookup.storeOfOne.tags).2 := by
  decide

/-- Where column names are not quoted, a tag is not saved. -/
theorem LCFileDB.lcSaveTag_unquoted (writes : Bool) (tag : LCFileTagM) (tags : TagTable) :
  lcSaveTag .unquoted writes tag tags = (false, tags)
  := by
  rw [lcSaveTag]
  split
  · simp [ColumnNames.takesGroup]
  · rfl

/-- The path of the file that `p_copyFile:withMd5:deleteSource:` finds in the store. -/
def reusedPath (P : Platform) (e : Surroundings) (source md5 : String) (s : Store) :
    Option String :=
  match (LCFileDB.lcGetFileWithMd5 (some md5) s.files).filter (fun r => s.disk.has r.filePath) with
  | some oldFile => some oldFile.filePath
  | none =>
      if s.disk.has (P.storePath e.saveDir md5 source) then some (P.storePath e.saveDir md5 source)
      else none

/-- A file that is found is left as it is; otherwise the source is moved or copied. -/
theorem LCFileSaveService.pCopyFile_eq (P : Platform) (e : Surroundings) (source md5 : String)
    (deleteSource : Bool) (s : Store) :
  pCopyFile P e source md5 deleteSource s = match reusedPath P e source md5 s with
    | some path => (some path, s.disk)
    | none =>
        if deleteSource then
          if e.moves then
            (some (P.storePath e.saveDir md5 source),
              s.disk.move source (P.storePath e.saveDir md5 source))
          else (none, s.disk)
        else if e.copies then
          (some (P.storePath e.saveDir md5 source),
            s.disk.copy source (P.storePath e.saveDir md5 source))
        else (none, s.disk)
  := by
  simp only [pCopyFile, reusedPath]
  cases (LCFileDB.lcGetFileWithMd5 (some md5) s.files).filter (fun r => s.disk.has r.filePath) with
  | some oldFile => rfl
  | none =>
      dsimp only
      by_cases hhas : s.disk.has (P.storePath e.saveDir md5 source)
      · simp [hhas]
      · simp [hhas]

/-- Where nothing is found, there is no file where the source is to be placed. -/
theorem not_has_of_reusedPath {P : Platform} {e : Surroundings} {source md5 : String} {s : Store}
    (h : reusedPath P e source md5 s = none) :
  s.disk.has (P.storePath e.saveDir md5 source) = false
  := by
  revert h
  rw [reusedPath]
  split
  · rintro ⟨⟩
  · split
    · rintro ⟨⟩
    · next hnot =>
        rintro -
        apply Bool.eq_false_iff.mpr hnot

/-- With `deleteSource` the source is gone, without it the source is as it was. -/
def SourceAsAsked (source : String) (deleteSource : Bool) (s s' : Store) : Prop :=
  if deleteSource then s'.disk source = none else s'.disk source = s.disk source

section

variable {P : Platform} {names : ColumnNames} {e : Surroundings} {s : Store} {source : String}
  {c : Bytes}

/-- A save of an existing file under a tag, by what `p_copyFile:withMd5:deleteSource:` does. -/
theorem LCFileSaveService.lcSaveFileFrom_eq (hsource : s.disk source = some c)
    {tag : Option String} (htag : lengthOf tag ≠ 0) (key group : Option String) (time : Int)
    (deleteSource : Bool) {filePath : Option String} {disk : Disk String Bytes}
    (hcopy : pCopyFile P e source (P.md5 c) deleteSource s = (filePath, disk)) :
  lcSaveFileFrom P names e (some source) key tag group time deleteSource s
    = (some ⟨some (key.getD (P.md5 c)), some (P.md5 c), filePath⟩,
        { s with
          files := (lcSaveFile e.writesFile
            ⟨some (key.getD (P.md5 c)), some (P.md5 c), filePath⟩ s.files).2
          disk })
  := by
  have hhas : s.disk.has source = true := Disk.has_iff.mpr ⟨c, hsource⟩
  have hmd5 : Md5Tools.fileMD5WithPath P.md5 source s.disk = P.md5 c := by
    simp [Md5Tools.fileMD5WithPath, hsource]
  simp only [lcSaveFileFrom, Option.filter, hhas, if_true, if_neg htag, hmd5, hcopy,
    StoreOp.lcSaveTag_untagged]

/-- A save that stores or reuses a file treats its source as asked exactly if it is not to delete
it, or finds no file in the store. -/
theorem sourceAsAsked_iff (hsource : s.disk source = some c) (houtside : ¬ P.InStore source)
    (key tag group : Option String) (time : Int) (deleteSource : Bool)
    (hstored : ((lcSaveFileFrom P names e (some source) key tag group time deleteSource s).1.bind
      LCFileM.filePath).isSome) :
  SourceAsAsked source deleteSource s
      (lcSaveFileFrom P names e (some source) key tag group time deleteSource s).2 ↔
    (deleteSource → reusedPath P e source (P.md5 c) s = none)
  := by
  have htag : lengthOf tag ≠ 0 := by
    intro htag
    simp [lcSaveFileFrom, htag, Option.filter, Disk.has, hsource] at hstored
  have hne : source ≠ P.storePath e.saveDir (P.md5 c) source := by
    intro heq
    apply houtside ⟨e.saveDir, c, source, heq.symm⟩
  cases hcopy : pCopyFile P e source (P.md5 c) deleteSource s with
  | mk filePath disk =>
      rw [lcSaveFileFrom_eq hsource htag key group time deleteSource hcopy] at hstored ⊢
      dsimp only [Option.bind_some] at hstored
      rw [pCopyFile_eq] at hcopy
      simp only [SourceAsAsked]
      cases hreused : reusedPath P e source (P.md5 c) s with
      | some path =>
          rw [hreused] at hcopy
          cases hcopy
          simp [hsource]
      | none =>
          rw [hreused] at hcopy
          dsimp only at hcopy
          cases deleteSource with
          | true =>
              rw [if_pos rfl] at hcopy
              split at hcopy
              · cases hcopy
                simp [Disk.move, Disk.remove_apply]
              · cases hcopy
                cases hstored
          | false =>
              rw [if_neg Bool.false_ne_true] at hcopy
              split at hcopy
              · cases hcopy
                simp [Disk.copy_apply, hne]
              · cases hcopy
                cases hstored

end

/-- A first content is moved into the store. -/
theorem sourceAsAsked_moved :
  SourceAsAsked "x" true ⟨∅, ∅, Store.twoFiles⟩
    (lcSaveFileFrom Store.twoMd5s .unquoted { saveDir := "/d", now := 0 } (some "x") (some "k")
      (some "t") (some "g") 1 true ⟨∅, ∅, Store.twoFiles⟩).2
  := by
  have houtside : ¬ Store.twoMd5s.InStore "x" := by
    intro hin
    have hnone := Store.twoFiles_outside "x" hin
    revert hnone
    decide
  apply (sourceAsAsked_iff (c := [1]) rfl houtside (some "k") (some "t") (some "g") 1 true
    (by decide +kernel)).mpr
  decide +kernel

/-- The two files of `Store.twoFiles`, and a third with the content of the first. -/
def threeFiles : Disk String Bytes := Function.update Store.twoFiles "z" (some [1])

/-- A content that was copied into the store is saved again, from another file that is to be
deleted. -/
theorem not_sourceAsAsked_reused :
  ¬ Store.twoMd5s.InStore "z" ∧
    ¬ SourceAsAsked "z" true
      (Run.final (StoreEvent.step Store.twoMd5s .unquoted) ⟨∅, ∅, threeFiles⟩ [Store.saveAtK "x"])
      (lcSaveFileFrom Store.twoMd5s .unquoted { saveDir := "/d", now := 0 } (some "z") (some "l")
        (some "t") (some "g") 1 true
        (Run.final (StoreEvent.step Store.twoMd5s .unquoted) ⟨∅, ∅, threeFiles⟩
          [Store.saveAtK "x"])).2
  := by
  constructor
  · rintro ⟨saveDir, c, source, hpath⟩
    have hlength := congrArg String.length hpath
    have htxt : ".txt".length = 4 := rfl
    have hz : "z".length = 1 := rfl
    simp [Store.twoMd5s, htxt, hz] at hlength
  · unfold SourceAsAsked
    decide +kernel

section

variable {P : Platform} {names : ColumnNames} {e : Surroundings} {s : Store} {source : String}
  {c : Bytes}

/-! ### All or nothing -/

/-- The path at which a save leaves its content. -/
def landsAt (P : Platform) (e : Surroundings) (source md5 : String) (s : Store) : String :=
  (reusedPath P e source md5 s).getD (P.storePath e.saveDir md5 source)

/-- The save leaves its content at that path: the file found has this content, or the move or the
copy succeeds. -/
def Lands (P : Platform) (e : Surroundings) (source : String) (c : Bytes) (deleteSource : Bool)
    (s : Store) : Prop :=
  match reusedPath P e source (P.md5 c) s with
  | some path => s.disk path = some c
  | none => if deleteSource then e.moves = true else e.copies = true

/-- The MD5 has the tag in the group. -/
def Store.HasTag (md5 : String) (tag group : Option String) (s : Store) : Prop :=
  ∃ t ∈ s.tags.rows, t.md5 = md5 ∧ some t.tag = tag ∧ some t.group = group

/-- The save returns a file that is there as saved: with its row, a tag and its content. -/
def ReturnsSaved (P : Platform) (c : Bytes) (key tag group : Option String)
    (result : Option LCFileM × Store) : Prop :=
  ∃ path, result.1 = some ⟨some (key.getD (P.md5 c)), some (P.md5 c), some path⟩ ∧
    ⟨key.getD (P.md5 c), P.md5 c, path⟩ ∈ result.2.files.rows ∧
    result.2.HasTag (P.md5 c) tag group ∧ result.2.disk path = some c

/-- The save returns a saved file, or nothing, and then it has changed nothing. -/
def AllOrNothing (P : Platform) (sourcePath key tag group : Option String) (s : Store)
    (result : Option LCFileM × Store) : Prop :=
  (∃ c, sourcePath.bind s.disk = some c ∧ ReturnsSaved P c key tag group result) ∨
    result = (none, s)

/-- The MD5 has the tag in the group already, the content gets to its path, and its row is there or
can be written. -/
def Completes (P : Platform) (e : Surroundings) (source : String) (c : Bytes)
    (key tag group : Option String) (deleteSource : Bool) (s : Store) : Prop :=
  s.HasTag (P.md5 c) tag group ∧ Lands P e source c deleteSource s ∧
    (⟨key.getD (P.md5 c), P.md5 c, landsAt P e source (P.md5 c) s⟩ ∈ s.files.rows ∨
      e.writesFile = true ∧ P.md5 c ≠ "" ∧ key.getD (P.md5 c) ≠ "" ∧
        landsAt P e source (P.md5 c) s ≠ "")

/-- The row of a file object is there after its save exactly if it was, or was written. -/
theorem LCFileDB.mem_lcSaveFile {writes : Bool} {key md5 path : String} {files : FileTable} :
  ⟨key, md5, path⟩ ∈ (lcSaveFile writes ⟨some key, some md5, some path⟩ files).2.rows ↔
    ⟨key, md5, path⟩ ∈ files.rows ∨ writes = true ∧ md5 ≠ "" ∧ key ≠ "" ∧ path ≠ ""
  := by
  simp only [lcSaveFile, String.length_eq_zero_iff]
  split
  · next hempty =>
      rw [or_iff_left]
      rintro ⟨-, hmd5, hkey, hpath⟩
      rcases hempty with hempty | hempty | hempty
      · apply hmd5 hempty
      · apply hkey hempty
      · apply hpath hempty
  · next hempty =>
      rw [not_or, not_or] at hempty
      split
      · next hwrites =>
          rw [Table.mem_insertOrReplace]
          simp [hwrites, hempty]
      · next hwrites => simp [hwrites]

/-- A content that is to be left at a path gets there exactly if the save lands. -/
theorem pCopyFile_lands (hsource : s.disk source = some c) (deleteSource : Bool) (path : String) :
  (pCopyFile P e source (P.md5 c) deleteSource s).1 = some path ∧
      (pCopyFile P e source (P.md5 c) deleteSource s).2 path = some c ↔
    path = landsAt P e source (P.md5 c) s ∧ Lands P e source c deleteSource s
  := by
  rw [pCopyFile_eq, landsAt, Lands]
  cases hreused : reusedPath P e source (P.md5 c) s with
  | some path' =>
      dsimp only [Option.getD_some]
      rw [Option.some_inj]
      constructor
      · rintro ⟨rfl, hfile⟩
        exact ⟨rfl, hfile⟩
      · rintro ⟨rfl, hfile⟩
        exact ⟨rfl, hfile⟩
  | none =>
      have hne : P.storePath e.saveDir (P.md5 c) source ≠ source := by
        intro heq
        have hhas := not_has_of_reusedPath hreused
        rw [heq, Disk.has, hsource] at hhas
        cases hhas
      dsimp only [Option.getD_none]
      cases deleteSource with
      | true =>
          by_cases hmoves : e.moves
          · simp only [if_true, hmoves, Option.some_inj, and_true]
            constructor
            · rintro ⟨rfl, -⟩
              rfl
            · rintro rfl
              refine ⟨rfl, ?_⟩
              rw [Disk.move, Disk.remove_apply, if_neg hne, Disk.copy_apply, if_pos rfl, hsource]
          · simp [hmoves]
      | false =>
          by_cases hcopies : e.copies
          · simp only [Bool.false_eq_true, if_false, if_true, hcopies, Option.some_inj, and_true]
            constructor
            · rintro ⟨rfl, -⟩
              rfl
            · rintro rfl
              refine ⟨rfl, ?_⟩
              rw [Disk.copy_apply, if_pos rfl, hsource]
          · simp [hcopies]

end

/-- A save is all or nothing exactly if it has no source or no tag, or its MD5 has the tag already,
its content gets to its path, and its row is there or can be written. -/
theorem allOrNothing_iff (P : Platform) (names : ColumnNames) (e : Surroundings)
    (sourcePath key tag group : Option String) (time : Int) (deleteSource : Bool) (s : Store) :
  AllOrNothing P sourcePath key tag group s
      (lcSaveFileFrom P names e sourcePath key tag group time deleteSource s) ↔
    (lengthOf tag ≠ 0 → ∀ source c, sourcePath = some source → s.disk source = some c →
      Completes P e source c key tag group deleteSource s)
  := by
  by_cases hsource : ∃ source c, sourcePath = some source ∧ s.disk source = some c
  · obtain ⟨source, c, rfl, hsource⟩ := hsource
    by_cases htag : lengthOf tag = 0
    · have hnothing : lcSaveFileFrom P names e (some source) key tag group time deleteSource s
          = (none, s) := by
        simp [lcSaveFileFrom, Option.filter, Disk.has, hsource, htag]
      rw [hnothing]
      constructor
      · intro _ hne
        apply absurd htag hne
      · intro _
        apply Or.inr rfl
    · have hlands := @pCopyFile_lands P e s source c hsource deleteSource
      cases hcopy : pCopyFile P e source (P.md5 c) deleteSource s with
      | mk filePath disk =>
          rw [hcopy] at hlands
          rw [lcSaveFileFrom_eq hsource htag key group time deleteSource hcopy]
          constructor
          · rintro (⟨c', hc', path, hresult, hrow, hhasTag, hfile⟩ | hnothing)
            · rw [Option.bind_some, hsource] at hc'
              cases hc'
              cases hresult
              obtain ⟨rfl, hlanded⟩ := (hlands path).mp ⟨rfl, hfile⟩
              rintro - source' c' ⟨⟩ hc'
              rw [hsource] at hc'
              cases hc'
              exact ⟨hhasTag, hlanded, mem_lcSaveFile.mp hrow⟩
            · cases hnothing
          · intro h
            obtain ⟨hhasTag, hlands', hrow⟩ := h htag source c rfl hsource
            obtain ⟨rfl, hfile⟩ := (hlands _).mpr ⟨rfl, hlands'⟩
            left
            exact ⟨c, hsource, _, rfl, mem_lcSaveFile.mpr hrow, hhasTag, hfile⟩
  · have hnothing :
        lcSaveFileFrom P names e sourcePath key tag group time deleteSource s = (none, s) := by
      cases sourcePath with
      | none => rfl
      | some source =>
          have hhas : s.disk.has source = false := by
            rw [Bool.eq_false_iff]
            intro hhas
            obtain ⟨c, hc⟩ := Disk.has_iff.mp hhas
            apply hsource ⟨source, c, rfl, hc⟩
          simp [lcSaveFileFrom, Option.filter, hhas]
    rw [hnothing]
    constructor
    · rintro - - source c rfl hc
      apply absurd ⟨source, c, rfl, hc⟩ hsource
    · intro _
      apply Or.inr rfl

/-- The tag of a first save is not saved. -/
theorem not_allOrNothing_first :
  ¬ AllOrNothing Store.twoMd5s (some "x") (some "k") (some "t") (some "g") ⟨∅, ∅, Store.twoFiles⟩
    (lcSaveFileFrom Store.twoMd5s .unquoted { saveDir := "/d", now := 0 } (some "x") (some "k")
      (some "t") (some "g") 1 false ⟨∅, ∅, Store.twoFiles⟩)
  := by
  rintro (⟨c, -, path, -, -, ⟨t, ht, -⟩, -⟩ | hnothing)
  · rw [StoreOp.tags_lcSaveFileFrom] at ht
    cases ht
  · have hnone := congrArg Prod.fst hnothing
    revert hnone
    decide +kernel

end LCCFileService
