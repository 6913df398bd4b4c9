import LCCFileService.FileSave.Lookup

/-!
# Deleting tags and the sweep

The deleting operations delete rows of the tag table and then sweep: `p_deleteNoTagFile`
deletes the file rows whose MD5 has no tag left, with their files.  A deletion is exact when
the tags that go are the ones asked for, the file rows that stay are the ones with a tag,
and the files that go are the ones of the rows that go.  A deletion by a key or by a path
is confined when it touches nothing but the MD5 of the row that has the key or the path.

The sweep and the deletions by a group name the column `group`.  Where column names are not
quoted they do nothing, and are exact exactly when there is nothing to delete.
-/

namespace LCCFileService

open LCFileSaveService

/-! ### The sweep -/

namespace LCFileDB

/-- The left outer join has a row without `tagId` for a file row with this MD5. -/
def Untagged (tags : TagTable) (md5 : String) : Prop :=
  ∀ t ∈ tags.rows, t.md5 = md5 → ∃ t' ∈ tags.rows, t'.md5 = md5 ∧ t'.tagId = none

instance (tags : TagTable) (md5 : String) : Decidable (Untagged tags md5) :=
  inferInstanceAs (Decidable (∀ t ∈ tags.rows, t.md5 = md5 →
    ∃ t' ∈ tags.rows, t'.md5 = md5 ∧ t'.tagId = none))

/-- Where no `tagId` is null, the MD5s without `tagId` are the ones without tag. -/
theorem untagged_iff {tags : TagTable} {md5 : String}
    (htagId : ∀ t ∈ tags.rows, t.md5 = md5 → t.tagId ≠ none) :
  Untagged tags md5 ↔ ¬ ∃ t ∈ tags.rows, t.md5 = md5
  := by
  constructor
  · rintro h ⟨t, ht, hmd5⟩
    obtain ⟨t', ht', hmd5', hnull⟩ := h t ht hmd5
    apply htagId t' ht' hmd5' hnull
  · intro h t ht hmd5
    apply absurd ⟨t, ht, hmd5⟩ h

/-- The sweep deletes the file rows with this MD5: its query is accepted, and the MD5 is
untagged. -/
def Swept (names : ColumnNames) (tags : TagTable) (md5 : String) : Prop :=
  names.takesGroup ∧ Untagged tags md5

instance (names : ColumnNames) (tags : TagTable) (md5 : String) :
    Decidable (Swept names tags md5) :=
  inferInstanceAs (Decidable (_ ∧ _))

/-- The files without tag are the rows of the file table with an untagged MD5. -/
theorem mem_lcGetNoTagFile {names : ColumnNames} {files : FileTable} {tags : TagTable}
    {r : LCFileMRow} :
  r ∈ lcGetNoTagFile names files tags ↔ r ∈ files.rows ∧ Swept names tags r.md5
  := by
  have hjoin : ∀ f, (∃ j ∈ joinTags tags f, (j.2.bind LCFileTagMRow.tagId).isNone ∧ j.1 = r)
      ↔ f = r ∧ Untagged tags f.md5 := by
    intro f
    rw [joinTags]
    split
    · next hnil =>
        have huntagged : Untagged tags f.md5 := by
          intro t ht hmd5
          have hnot := List.filter_eq_nil_iff.mp hnil t ht
          simp [hmd5] at hnot
        simp [huntagged]
    · next hne =>
        constructor
        · rintro ⟨j, hj, hnull, rfl⟩
          obtain ⟨t, ht, rfl⟩ := List.mem_map.mp hj
          obtain ⟨hmem, hmd5⟩ := List.mem_filter.mp ht
          have hmd5' : t.md5 = f.md5 := by
            symm
            simpa using hmd5
          exact ⟨rfl, fun _ _ _ => ⟨t, hmem, hmd5', by simpa using hnull⟩⟩
        · rintro ⟨rfl, huntagged⟩
          obtain ⟨t, ht⟩ := List.exists_mem_of_ne_nil _ (fun h => hne h)
          obtain ⟨hmem, hmd5⟩ := List.mem_filter.mp ht
          obtain ⟨t', ht', hmd5', hnull⟩ := huntagged t hmem (by symm; simpa using hmd5)
          refine ⟨(f, some t'), ?_, by simp [hnull], rfl⟩
          apply List.mem_map.mpr
          use t'
          simp [ht', hmd5']
  rw [lcGetNoTagFile, Swept]
  split
  · next htakes =>
      simp only [List.mem_map, List.mem_filter, List.mem_flatMap]
      constructor
      · rintro ⟨j, ⟨⟨f, hf, hj⟩, hnull⟩, hr⟩
        obtain ⟨rfl, huntagged⟩ := (hjoin f).mp ⟨j, hj, hnull, hr⟩
        exact ⟨hf, htakes, huntagged⟩
      · rintro ⟨hr, -, huntagged⟩
        obtain ⟨j, hj, hnull, heq⟩ := (hjoin r).mpr ⟨rfl, huntagged⟩
        exact ⟨j, ⟨⟨r, hr, hj⟩, hnull⟩, heq⟩
  · next htakes => simp [htakes]

end LCFileDB

open LCFileDB

namespace LCFileSaveService

/-- The loop of `p_deleteNoTagFile` removes the files of all rows it goes over. -/
theorem foldl_removeFile (rs : List LCFileMRow) (disk : Disk String Bytes) (p : String) :
  rs.foldl removeFile disk p = if ∃ r ∈ rs, r.filePath = p then none else disk p
  := by
  induction rs generalizing disk with
  | nil => simp
  | cons r rs ih =>
      have hremove : removeFile disk r p = if r.filePath = p then none else disk p := by
        rw [removeFile]
        split
        · rw [Disk.remove_apply]
          simp only [eq_comm]
        · next hfile =>
            split
            · next heq =>
                subst heq
                simpa [Disk.has] using hfile
            · rfl
      rw [List.foldl_cons, ih, hremove]
      by_cases hp : r.filePath = p
      · simp [hp]
      · simp [hp]

variable {names : ColumnNames}

@[simp]
theorem tags_pDeleteNoTagFile (s : Store) :
  (pDeleteNoTagFile names s).tags = s.tags
  := rfl

/-- The sweep leaves the file rows whose MD5 it does not sweep. -/
theorem files_pDeleteNoTagFile (s : Store) :
  (pDeleteNoTagFile names s).files.rows
    = s.files.rows.filter (fun r => ¬ Swept names s.tags r.md5)
  := by
  simp only [pDeleteNoTagFile, lcDeleteFileWithMd5s, Table.rows_deleteWhere]
  apply List.filter_congr
  intro r hr
  have hmem : r.md5 ∈ (lcGetNoTagFile names s.files s.tags).map LCFileMRow.md5
      ↔ Swept names s.tags r.md5 := by
    constructor
    · intro h
      obtain ⟨r', hr', heq⟩ := List.mem_map.mp h
      rw [← heq]
      apply (mem_lcGetNoTagFile.mp hr').2
    · intro h
      apply List.mem_map_of_mem (mem_lcGetNoTagFile.mpr ⟨hr, h⟩)
  simp only [hmem, decide_not]

/-- The sweep removes the files of the rows whose MD5 it sweeps. -/
theorem disk_pDeleteNoTagFile (s : Store) (p : String) :
  (pDeleteNoTagFile names s).disk p
    = if ∃ r ∈ s.files.rows, Swept names s.tags r.md5 ∧ r.filePath = p then none else s.disk p
  := by
  simp only [pDeleteNoTagFile, foldl_removeFile, mem_lcGetNoTagFile, and_assoc]

/-- Where the query for the files without tag is not accepted, the sweep changes nothing. -/
theorem pDeleteNoTagFile_eq_self (htakes : names.takesGroup = false) (s : Store) :
  pDeleteNoTagFile names s = s
  := by
  have hswept : ∀ md5, ¬ Swept names s.tags md5 := by
    rintro md5 ⟨htakes', -⟩
    rw [htakes] at htakes'
    cases htakes'
  ext1
  · ext1
    rw [files_pDeleteNoTagFile, List.filter_eq_self]
    intro r _
    simpa using hswept r.md5
  · rfl
  · funext p
    rw [disk_pDeleteNoTagFile, if_neg]
    rintro ⟨r, -, h, -⟩
    apply hswept r.md5 h

end LCFileSaveService

/-! ### Exact deletions -/

/-- Every row's MD5 has a tag. -/
def Store.Tagged (s : Store) : Prop := ∀ f ∈ s.files.rows, ∃ t ∈ s.tags.rows, t.md5 = f.md5

instance (s : Store) : Decidable s.Tagged :=
  inferInstanceAs (Decidable (∀ f ∈ s.files.rows, ∃ t ∈ s.tags.rows, _))

/-- Exactly the tags satisfying `dropped` are gone, exactly the file rows with a tag are left,
and exactly the files of the other rows are removed. -/
structure DeletesExactly (dropped : LCFileTagMRow → Prop) [DecidablePred dropped]
    (s s' : Store) : Prop where
  tags : s'.tags.rows = s.tags.rows.filter (fun t => ¬ dropped t)
  files : s'.files.rows = s.files.rows.filter (fun r => ∃ t ∈ s'.tags.rows, t.md5 = r.md5)
  disk : ∀ p, s'.disk p
    = if ∃ r ∈ s.files.rows, r ∉ s'.files.rows ∧ r.filePath = p then none else s.disk p

/-- No tag satisfies `dropped`, and no file is without tag. -/
structure NothingToDelete (dropped : LCFileTagMRow → Prop) (s : Store) : Prop where
  tags : ∀ t ∈ s.tags.rows, ¬ dropped t
  files : s.Tagged

section

variable {dropped : LCFileTagMRow → Prop} [DecidablePred dropped] {s : Store}

/-- Changing nothing is exact exactly when there is nothing to delete. -/
theorem deletesExactly_self :
  DeletesExactly dropped s s ↔ NothingToDelete dropped s
  := by
  constructor
  · rintro ⟨htags, hfiles, -⟩
    constructor
    · intro t ht
      rw [htags] at ht
      simpa using (List.mem_filter.mp ht).2
    · intro f hf
      rw [hfiles] at hf
      simpa using (List.mem_filter.mp hf).2
  · rintro ⟨htags, hfiles⟩
    constructor
    · symm
      apply List.filter_eq_self.mpr
      intro t ht
      simpa using htags t ht
    · symm
      apply List.filter_eq_self.mpr
      intro f hf
      simpa using hfiles f hf
    · intro p
      rw [if_neg]
      rintro ⟨r, hr, hnot, -⟩
      apply hnot hr

/-- Deleting tags, none of which has a null `tagId`, and sweeping is exact, if the statements
are accepted. -/
theorem deletesExactly_pDeleteNoTagFile {names : ColumnNames} (htakes : names.takesGroup)
    (htagId : ∀ t ∈ s.tags.rows, t.tagId ≠ none) {p : LCFileTagMRow → Bool}
    (hp : ∀ t, p t = true ↔ dropped t) :
  DeletesExactly dropped s (pDeleteNoTagFile names { s with tags := s.tags.deleteWhere p })
  := by
  have hp' : p = fun t => decide (dropped t) := by
    funext t
    rw [Bool.eq_iff_iff, hp, decide_eq_true_iff]
  have hswept : ∀ md5, Swept names (s.tags.deleteWhere p) md5
      ↔ ¬ ∃ t ∈ (s.tags.deleteWhere p).rows, t.md5 = md5 := by
    intro md5
    rw [Swept, and_iff_right htakes]
    apply untagged_iff
    intro t ht _
    apply htagId t (Table.mem_deleteWhere.mp ht).1
  have hfiles : (pDeleteNoTagFile names { s with tags := s.tags.deleteWhere p }).files.rows
      = s.files.rows.filter (fun r => ∃ t ∈ (s.tags.deleteWhere p).rows, t.md5 = r.md5) := by
    rw [files_pDeleteNoTagFile]
    simp only [hswept, not_not]
  constructor
  · simp [hp']
  · apply hfiles
  · intro q
    rw [disk_pDeleteNoTagFile, hfiles]
    apply if_congr _ rfl rfl
    apply exists_congr
    intro r
    apply and_congr_right
    intro hr
    simp only [hswept, List.mem_filter, hr, true_and, decide_eq_true_eq]

/-- Deleting tags by a statement that names `group`, and sweeping, is exact exactly when the
statements are accepted or there is nothing to delete. -/
theorem deletesExactly_iff {names : ColumnNames} (htagId : ∀ t ∈ s.tags.rows, t.tagId ≠ none)
    {p : LCFileTagMRow → Bool} (hp : ∀ t, p t = true ↔ dropped t) :
  DeletesExactly dropped s (pDeleteNoTagFile names
      { s with tags := s.tags.deleteWhere (fun t => names.takesGroup && p t) }) ↔
    names.takesGroup ∨ NothingToDelete dropped s
  := by
  cases htakes : names.takesGroup with
  | true =>
      simp only [Bool.true_and, true_or, iff_true]
      apply deletesExactly_pDeleteNoTagFile htakes htagId hp
  | false =>
      have hself : s.tags.deleteWhere (fun _ => false) = s.tags := by
        apply Table.deleteWhere_eq_self.mpr
        simp
      simp only [Bool.false_and, Bool.false_eq_true, false_or]
      rw [hself, pDeleteNoTagFile_eq_self htakes]
      apply deletesExactly_self

end

/-- The deletions by a group and a time, and the deletions by an MD5, a tag and a group, are
exact exactly when statements that name `group` are accepted or there is nothing to delete. -/
theorem deletions_exact_iff (names : ColumnNames) (s : Store)
    (htagId : ∀ t ∈ s.tags.rows, t.tagId ≠ none) :
  (∀ group time,
    DeletesExactly (fun t => some t.group = group ∧ t.time ≥ time) s
        (lcDeleteFileInGroupAfter names group time s) ↔
      names.takesGroup ∨ NothingToDelete (fun t => some t.group = group ∧ t.time ≥ time) s) ∧
  (∀ group time,
    DeletesExactly (fun t => some t.group = group ∧ t.time ≤ time) s
        (lcDeleteFileInGroupBefore names group time s) ↔
      names.takesGroup ∨ NothingToDelete (fun t => some t.group = group ∧ t.time ≤ time) s) ∧
  ∀ md5 tag group, md5 ≠ "" → tag ≠ "" → group ≠ "" →
    (DeletesExactly (fun t => t.md5 = md5 ∧ t.tag = tag ∧ t.group = group) s
        (lcDeleteFileWithMd5 names (some md5) (some tag) (some group) s) ↔
      names.takesGroup ∨ NothingToDelete (fun t => t.md5 = md5 ∧ t.tag = tag ∧ t.group = group) s)
  := by
  and_intros
  · intro group time
    apply deletesExactly_iff htagId
    simp
  · intro group time
    apply deletesExactly_iff htagId
    simp
  · intro md5 tag group hmd5 htag hgroup
    have htakes : takesDelete names (some group) = names.takesGroup := by
      simp [takesDelete, lengthOf, hgroup]
    rw [LCFileSaveService.lcDeleteFileWithMd5, lcDeleteTag, htakes]
    apply deletesExactly_iff htagId
    intro t
    simp only [criterion_some hmd5, criterion_some htag, criterion_some hgroup, Bool.and_eq_true,
      decide_eq_true_eq]
    constructor
    · rintro ⟨⟨htag, hmd5⟩, hgroup⟩
      exact ⟨hmd5, htag, hgroup⟩
    · rintro ⟨hmd5, htag, hgroup⟩
      exact ⟨⟨htag, hmd5⟩, hgroup⟩

/-- In the store of one file with a tag there is nothing to delete of another group. -/
theorem deletesExactly_otherGroup :
  DeletesExactly (fun t => some t.group = some "h" ∧ t.time ≥ 0) Lookup.storeOfOne
    (lcDeleteFileInGroupAfter .unquoted (some "h") 0 Lookup.storeOfOne)
  := by
  apply ((deletions_exact_iff .unquoted Lookup.storeOfOne (by decide)).1 (some "h") 0).mpr
  right
  constructor
  · decide
  · decide

/-- One stored file without a tag. -/
def storeOfUntagged : Store := { Lookup.storeOfOne with tags := ∅ }

/-- The file without a tag is not deleted. -/
theorem not_deletesExactly_untagged :
  ¬ DeletesExactly (fun t => some t.group = some "g" ∧ t.time ≥ 0) storeOfUntagged
      (lcDeleteFileInGroupAfter .unquoted (some "g") 0 storeOfUntagged)
  := by
  intro h
  have hfiles := h.files
  revert hfiles
  decide

/-! ### Confined deletions -/

/-- The columns by which a file is deleted like the file of a row. -/
inductive RowName where
  | key (key : Option String)
  | filePath (filePath : Option String)

namespace RowName

/-- The row that has the key or the path. -/
def find : RowName → Store → Option LCFileMRow
  | key a, s => LCFileDB.lcGetFileWithKey a s.files
  | filePath a, s => LCFileDB.lcGetFileWithfilePath a s.files

/-- The deletion by a key or by a path. -/
def delete (names : ColumnNames) (tag group : Option String) : RowName → Store → Store
  | key a, s => lcDeleteFileWithKey names a tag group s
  | filePath a, s => lcDeleteFileWithFilePath names a tag group s

theorem delete_eq (names : ColumnNames) (tag group : Option String) (n : RowName) (s : Store) :
  n.delete names tag group s
    = pDeleteNoTagFile names { s with
        tags := lcDeleteTag names tag ((n.find s).map LCFileMRow.md5) group s.tags }
  := by
  cases n with
  | key a => rfl
  | filePath a => rfl

/-- Without a row nothing changes; otherwise the tags, the rows and the files of all MD5s but
the row's stay as they are. -/
structure Confined (names : ColumnNames) (tag group : Option String) (n : RowName) (s : Store) :
    Prop where
  nothing : n.find s = none → n.delete names tag group s = s
  tags : ∀ r, n.find s = some r → ∀ t, t.md5 ≠ r.md5 →
    (t ∈ (n.delete names tag group s).tags.rows ↔ t ∈ s.tags.rows)
  files : ∀ r, n.find s = some r → ∀ f, f.md5 ≠ r.md5 →
    (f ∈ (n.delete names tag group s).files.rows ↔ f ∈ s.files.rows)
  disk : ∀ r, n.find s = some r → ∀ f ∈ s.files.rows, f.md5 ≠ r.md5 →
    (n.delete names tag group s).disk f.filePath = s.disk f.filePath

/-- The MD5 is that of the row with the key or the path. -/
def Names (n : RowName) (s : Store) (md5 : String) : Prop := ∃ r, n.find s = some r ∧ r.md5 = md5

/-- The tag is one of another MD5, and meets the criteria of the deletion, whose statement is
accepted. -/
structure Strays (names : ColumnNames) (tag group : Option String) (n : RowName) (s : Store)
    (t : LCFileTagMRow) : Prop where
  takes : takesDelete names group
  other : ¬ n.Names s t.md5
  tag : criterion tag t.tag
  group : criterion group t.group
  md5 : n.find s = none ∨ n.Names s ""

/-- What a deletion by a key or by a path must not meet: a tag of another MD5 that it deletes,
and, if there is a sweep, a file of another MD5 that has a tag with a null `tagId`. -/
structure Apart (names : ColumnNames) (tag group : Option String) (n : RowName) (s : Store) :
    Prop where
  stray : ∀ t ∈ s.tags.rows, ¬ n.Strays names tag group s t
  tagId : names.takesGroup → ∀ f ∈ s.files.rows, ¬ n.Names s f.md5 →
    ∀ t ∈ s.tags.rows, t.md5 = f.md5 → t.tagId ≠ none

/-- The tags a deletion by a key or by a path deletes. -/
theorem mem_tags_delete {names : ColumnNames} {tag group : Option String} {n : RowName} {s : Store}
    {t : LCFileTagMRow} :
  t ∈ (n.delete names tag group s).tags.rows ↔ t ∈ s.tags.rows ∧
    ¬ (takesDelete names group ∧ criterion tag t.tag ∧
      criterion ((n.find s).map LCFileMRow.md5) t.md5 ∧ criterion group t.group)
  := by
  rw [delete_eq, tags_pDeleteNoTagFile, lcDeleteTag, Table.mem_deleteWhere]
  apply and_congr_right
  intro _
  rw [← Bool.not_eq_true, Bool.and_eq_true, Bool.and_eq_true, Bool.and_eq_true, and_assoc]

/-- A tag of another MD5 is left exactly when it does not stray. -/
theorem mem_tags_delete_of_other {names : ColumnNames} {tag group : Option String} {n : RowName}
    {s : Store} {t : LCFileTagMRow} (hother : ¬ n.Names s t.md5) :
  t ∈ (n.delete names tag group s).tags.rows ↔ t ∈ s.tags.rows ∧ ¬ n.Strays names tag group s t
  := by
  have hmd5 : criterion ((n.find s).map LCFileMRow.md5) t.md5 = true
      ↔ n.find s = none ∨ n.Names s "" := by
    cases hfind : n.find s with
    | none => simp
    | some r =>
        have hne : r.md5 ≠ t.md5 := fun heq => hother ⟨r, hfind, heq⟩
        by_cases hempty : r.md5 = ""
        · simp [criterion, lengthOf, Names, hfind, hempty]
        · simp [criterion_some hempty, Names, hfind, hempty, hne.symm]
  rw [mem_tags_delete, hmd5]
  apply and_congr_right
  intro _
  apply not_congr
  constructor
  · rintro ⟨htakes, htag, h, hgroup⟩
    exact ⟨htakes, hother, htag, hgroup, h⟩
  · rintro ⟨htakes, -, htag, hgroup, h⟩
    exact ⟨htakes, htag, h, hgroup⟩

/-- Where no tag strays, an MD5 other than the row's is untagged after the deletion exactly when
it was before. -/
theorem untagged_delete_iff {names : ColumnNames} {tag group : Option String} {n : RowName}
    {s : Store} {md5 : String}
    (hstray : ∀ t ∈ s.tags.rows, ¬ n.Strays names tag group s t) (hother : ¬ n.Names s md5) :
  Untagged (n.delete names tag group s).tags md5 ↔ Untagged s.tags md5
  := by
  have hmem : ∀ t, t.md5 = md5 →
      (t ∈ (n.delete names tag group s).tags.rows ↔ t ∈ s.tags.rows) := by
    intro t ht
    rw [mem_tags_delete_of_other (by rwa [ht])]
    apply and_iff_left_of_imp (hstray t)
  constructor
  · intro h t ht hmd5
    obtain ⟨t', ht', hmd5', hnull⟩ := h t ((hmem t hmd5).mpr ht) hmd5
    exact ⟨t', (hmem t' hmd5').mp ht', hmd5', hnull⟩
  · intro h t ht hmd5
    obtain ⟨t', ht', hmd5', hnull⟩ := h t ((hmem t hmd5).mp ht) hmd5
    exact ⟨t', (hmem t' hmd5').mpr ht', hmd5', hnull⟩

/-- The file rows a deletion by a key or by a path leaves. -/
theorem mem_files_delete {names : ColumnNames} {tag group : Option String} {n : RowName} {s : Store}
    {f : LCFileMRow} :
  f ∈ (n.delete names tag group s).files.rows ↔
    f ∈ s.files.rows ∧ ¬ Swept names (n.delete names tag group s).tags f.md5
  := by
  rw [delete_eq, files_pDeleteNoTagFile]
  simp

/-- The disk after a deletion by a key or by a path. -/
theorem disk_delete (names : ColumnNames) (tag group : Option String) (n : RowName) (s : Store)
    (p : String) :
  (n.delete names tag group s).disk p
    = if ∃ f ∈ s.files.rows,
        Swept names (n.delete names tag group s).tags f.md5 ∧ f.filePath = p
      then none else s.disk p
  := by
  rw [delete_eq, disk_pDeleteNoTagFile]
  rfl

/-- The MD5 a name with a row names is that of the row. -/
theorem names_iff {n : RowName} {s : Store} {r : LCFileMRow} (h : n.find s = some r)
    (md5 : String) :
  n.Names s md5 ↔ r.md5 = md5
  := by
  simp [Names, h]

/-- A name without a row names no MD5. -/
theorem not_names {n : RowName} {s : Store} (h : n.find s = none) (md5 : String) :
  ¬ n.Names s md5
  := by
  simp [Names, h]

/-- A confined deletion keeps the tags of the other MD5s. -/
theorem Confined.mem_tags {names : ColumnNames} {tag group : Option String} {n : RowName}
    {s : Store} (h : n.Confined names tag group s) {t : LCFileTagMRow} (ht : t ∈ s.tags.rows)
    (hother : ¬ n.Names s t.md5) :
  t ∈ (n.delete names tag group s).tags.rows
  := by
  cases hfind : n.find s with
  | none =>
      rw [h.nothing hfind]
      apply ht
  | some r =>
      rw [names_iff hfind] at hother
      apply (h.tags r hfind t (Ne.symm hother)).mpr ht

/-- A confined deletion keeps the file rows of the other MD5s. -/
theorem Confined.mem_files {names : ColumnNames} {tag group : Option String} {n : RowName}
    {s : Store} (h : n.Confined names tag group s) {f : LCFileMRow} (hf : f ∈ s.files.rows)
    (hother : ¬ n.Names s f.md5) :
  f ∈ (n.delete names tag group s).files.rows
  := by
  cases hfind : n.find s with
  | none =>
      rw [h.nothing hfind]
      apply hf
  | some r =>
      rw [names_iff hfind] at hother
      apply (h.files r hfind f (Ne.symm hother)).mpr hf

theorem Confined.apart {names : ColumnNames} {tag group : Option String} {n : RowName} {s : Store}
    (h : n.Confined names tag group s) :
  n.Apart names tag group s
  := by
  have hstray : ∀ t ∈ s.tags.rows, ¬ n.Strays names tag group s t := by
    intro t ht hstrays
    have hmem := h.mem_tags ht hstrays.other
    apply ((mem_tags_delete_of_other hstrays.other).mp hmem).2 hstrays
  constructor
  · apply hstray
  · intro htakes f hf hother t ht hmd5 hnull
    apply (mem_files_delete.mp (h.mem_files hf hother)).2
    rw [Swept, untagged_delete_iff hstray hother]
    exact ⟨htakes, fun _ _ _ => ⟨t, ht, hmd5, hnull⟩⟩

end RowName

/-- Rows with different MD5s have different paths. -/
def Store.PathsDiffer (s : Store) : Prop :=
  ∀ f ∈ s.files.rows, ∀ f' ∈ s.files.rows, f.md5 ≠ f'.md5 → f.filePath ≠ f'.filePath

instance (s : Store) : Decidable s.PathsDiffer :=
  inferInstanceAs (Decidable (∀ f ∈ s.files.rows, ∀ f' ∈ s.files.rows, _ → _))

namespace RowName

section Apart

variable {names : ColumnNames} {tag group : Option String} {n : RowName} {s : Store}

/-- Apart from the other MD5s, none of them is swept. -/
theorem Apart.not_swept (h : n.Apart names tag group s) (htagged : s.Tagged) {f : LCFileMRow}
    (hf : f ∈ s.files.rows) (hother : ¬ n.Names s f.md5) :
  ¬ Swept names (n.delete names tag group s).tags f.md5
  := by
  rintro ⟨htakes, huntagged⟩
  rw [untagged_delete_iff h.stray hother, untagged_iff (h.tagId htakes f hf hother)] at huntagged
  apply huntagged (htagged f hf)

/-- Apart from the other MD5s, none of their files is removed. -/
theorem Apart.disk (h : n.Apart names tag group s) (hpaths : s.PathsDiffer) (htagged : s.Tagged)
    {f : LCFileMRow} (hf : f ∈ s.files.rows) (hother : ¬ n.Names s f.md5) :
  (n.delete names tag group s).disk f.filePath = s.disk f.filePath
  := by
  rw [disk_delete, if_neg]
  rintro ⟨f', hf', hswept, hpath⟩
  by_cases hmd5 : f'.md5 = f.md5
  · rw [hmd5] at hswept
    apply h.not_swept htagged hf hother hswept
  · apply hpaths f' hf' f hf hmd5 hpath

/-- Without a row and apart from all MD5s nothing changes. -/
theorem Apart.nothing (h : n.Apart names tag group s) (htagged : s.Tagged)
    (hfind : n.find s = none) :
  n.delete names tag group s = s
  := by
  have hother := not_names hfind
  ext1
  · ext1
    rw [delete_eq, files_pDeleteNoTagFile, List.filter_eq_self]
    intro f hf
    simpa [delete_eq] using h.not_swept htagged hf (hother f.md5)
  · rw [delete_eq, tags_pDeleteNoTagFile, lcDeleteTag]
    apply Table.deleteWhere_eq_self.mpr
    intro t ht
    have hmem := (mem_tags_delete_of_other (hother t.md5)).mpr ⟨ht, h.stray t ht⟩
    have hleft := (mem_tags_delete.mp hmem).2
    rw [← Bool.not_eq_true, Bool.and_eq_true, Bool.and_eq_true, Bool.and_eq_true, and_assoc]
    apply hleft
  · funext p
    rw [disk_delete, if_neg]
    rintro ⟨f, hf, hswept, -⟩
    apply h.not_swept htagged hf (hother f.md5) hswept

theorem Apart.confined (h : n.Apart names tag group s) (hpaths : s.PathsDiffer)
    (htagged : s.Tagged) :
  n.Confined names tag group s
  := by
  have hother : ∀ r, n.find s = some r → ∀ md5, md5 ≠ r.md5 → ¬ n.Names s md5 := by
    intro r hfind md5 hne hnames
    apply hne ((names_iff hfind md5).mp hnames).symm
  constructor
  · apply h.nothing htagged
  · intro r hfind t hne
    rw [mem_tags_delete_of_other (hother r hfind t.md5 hne)]
    apply and_iff_left_of_imp (h.stray t)
  · intro r hfind f hne
    rw [mem_files_delete]
    apply and_iff_left_of_imp
    intro hf
    apply h.not_swept htagged hf (hother r hfind f.md5 hne)
  · intro r hfind f hf hne
    apply h.disk hpaths htagged hf (hother r hfind f.md5 hne)

end Apart

/-- A deletion by a key or by a path, where rows with different MD5s have different paths and
every row's MD5 has a tag, is confined exactly when it is apart from the other MD5s. -/
theorem confined_iff_apart (names : ColumnNames) {s : Store} (hpaths : s.PathsDiffer)
    (htagged : s.Tagged) (tag group : Option String) (n : RowName) :
  n.Confined names tag group s ↔ n.Apart names tag group s
  := by
  constructor
  · intro h
    apply h.apart
  · intro h
    apply h.confined hpaths htagged

/-- Deleting a tag by the key of the one stored file is confined. -/
theorem confined_storeOfOne :
  (key (some "k")).Confined .unquoted (some "t") none Lookup.storeOfOne
  := by
  apply (confined_iff_apart .unquoted (by decide) (by decide) (some "t") none
    (key (some "k"))).mpr
  have hnames : (key (some "k")).Names Lookup.storeOfOne "m" :=
    ⟨⟨"k", "m", "/store/m.txt"⟩, by decide, rfl⟩
  have htags : ∀ t ∈ Lookup.storeOfOne.tags.rows, t.md5 = "m" := by decide
  constructor
  · intro t ht hstrays
    apply hstrays.other
    rwa [htags t ht]
  · rintro ⟨⟩

/-- Deleting by a key no row has, in whichever group, deletes the tag of the stored file. -/
theorem not_confined_unknownKey :
  Lookup.storeOfOne.PathsDiffer ∧ Lookup.storeOfOne.Tagged ∧
    ¬ (key (some "unknown")).Confined .unquoted (some "t") none Lookup.storeOfOne
  := by
  and_intros
  · decide
  · decide
  · intro h
    have htags := congrArg (fun s => s.tags.rows) (h.nothing (by decide))
    revert htags
    decide

end RowName

end LCCFileService
