import LCCFileService.Library.Catalogue
import LCCFileService.Library.Simulation
import LCCFileService.FileSave.References
import LCCFileService.FileSave.Sweep

/-!
# What the tables of the file store hold

The two tables of `LCFileDB` are for two catalogues: of the keys, with the MD5 and the path of the
file saved under each, and of the tags, with the MD5, the group and the time each was given.  Every
operation of `LCFileDB` whose statement is accepted does to the catalogues what its name says, every
other operation does nothing, and every query that is accepted is answered from them; in particular
a tag marks one MD5 only, the one it was given last.  The file store changes its tables by these
operations only.
-/

namespace LCCFileService

open LCFileDB

/-! ### The operations of LCFileDB -/

/-- The two tables. -/
structure FileTables where
  files : FileTable
  tags : TagTable

/-- An operation of `LCFileDB`; `writes` says whether the database accepts the write. -/
inductive FileDBOp where
  | saveFile (writes : Bool) (fileM : LCFileM)
  | deleteFileWithMd5 (md5 : Option String)
  | deleteFileWithMd5s (md5s : List String)
  | saveTag (writes : Bool) (tag : LCFileTagM)
  | deleteWithTagId (tagId : Option String)
  | deleteTag (tag md5 group : Option String)
  | deleteTagInGroupAfter (group : Option String) (time : Int)
  | deleteTagInGroupBefore (group : Option String) (time : Int)
  deriving DecidableEq

/-- The tables after an operation. -/
def FileTables.exec (names : ColumnNames) (t : FileTables) : FileDBOp → FileTables
  | .saveFile writes fileM => { t with files := (lcSaveFile writes fileM t.files).2 }
  | .deleteFileWithMd5 md5 => { t with files := lcDeleteFileWithMd5 md5 t.files }
  | .deleteFileWithMd5s md5s => { t with files := lcDeleteFileWithMd5s md5s t.files }
  | .saveTag writes tag => { t with tags := (lcSaveTag names writes tag t.tags).2 }
  | .deleteWithTagId tagId => { t with tags := lcDeleteWithTagId tagId t.tags }
  | .deleteTag tag md5 group => { t with tags := lcDeleteTag names tag md5 group t.tags }
  | .deleteTagInGroupAfter group time =>
      { t with tags := lcDeleteTagInGroupAfter names group time t.tags }
  | .deleteTagInGroupBefore group time =>
      { t with tags := lcDeleteTagInGroupBefore names group time t.tags }

/-- SQLite accepts the statement of the operation. -/
def FileDBOp.takes (names : ColumnNames) : FileDBOp → Bool
  | .saveTag _ _ => names.takesGroup
  | .deleteTag _ _ group => takesDelete names group
  | .deleteTagInGroupAfter _ _ => names.takesGroup
  | .deleteTagInGroupBefore _ _ => names.takesGroup
  | _ => true

/-! ### Catalogues -/

/-- The file saved under a key. -/
structure Saved where
  md5 : String
  filePath : String
  deriving DecidableEq

/-- What a tag marks. -/
structure Mark where
  md5 : String
  group : String
  time : Int
  deriving DecidableEq

/-- The files by their keys, and what the tags mark. -/
structure Holdings where
  files : Catalogue String Saved
  marks : Catalogue String Mark

/-- The file object can be saved, under a key. -/
def LCFileM.saved (fileM : LCFileM) : Option (String × Saved) :=
  match fileM.key, fileM.md5, fileM.filePath with
  | some key, some md5, some filePath =>
      if md5 ≠ "" ∧ key ≠ "" ∧ filePath ≠ "" then some (key, ⟨md5, filePath⟩) else none
  | _, _, _ => none

/-- The tag object can be saved, as a mark by its tag. -/
def LCFileTagM.mark (tag : LCFileTagM) : Option (String × Mark) :=
  match tag.md5, tag.tag, tag.group with
  | some md5, some t, some group =>
      if md5 ≠ "" ∧ t ≠ "" then some (t, ⟨md5, group, tag.time⟩) else none
  | _, _, _ => none

/-- Nothing is asked, or just this. -/
def Asked (wanted : Option String) (a : String) : Prop := wanted = none ∨ wanted = some "" ∨
  wanted = some a

instance (wanted : Option String) (a : String) : Decidable (Asked wanted a) :=
  inferInstanceAs (Decidable (_ ∨ _ ∨ _))

/-- What is held after an operation whose statement is accepted. -/
def Holdings.act (h : Holdings) : FileDBOp → Holdings
  | .saveFile writes fileM =>
      match fileM.saved with
      | some (key, file) => if writes then { h with files := h.files.enter key file } else h
      | none => h
  | .deleteFileWithMd5 md5 => { h with files := h.files.strike (fun _ file => some file.md5 = md5) }
  | .deleteFileWithMd5s md5s => { h with files := h.files.strike (fun _ file => file.md5 ∈ md5s) }
  | .saveTag writes tag =>
      match tag.mark with
      | some (t, mark) => if writes then { h with marks := h.marks.enter t mark } else h
      | none => h
  | .deleteWithTagId tagId => { h with marks := h.marks.strike (fun t _ => tagId = some t) }
  | .deleteTag tag md5 group =>
      { h with marks := h.marks.strike (fun t mark =>
          Asked tag t ∧ Asked md5 mark.md5 ∧ Asked group mark.group) }
  | .deleteTagInGroupAfter group time =>
      { h with marks := h.marks.strike (fun _ mark => group = some mark.group ∧ time ≤ mark.time) }
  | .deleteTagInGroupBefore group time =>
      { h with marks := h.marks.strike (fun _ mark => group = some mark.group ∧ mark.time ≤ time) }

/-- What is held after an operation. -/
def Holdings.after (names : ColumnNames) (h : Holdings) (op : FileDBOp) : Holdings :=
  if op.takes names then h.act op else h

/-- What the tables hold. -/
def FileTables.holdings (t : FileTables) : Holdings where
  files := t.files.catalogue (fun r => ⟨r.md5, r.filePath⟩)
  marks := t.tags.catalogue (fun r => ⟨r.md5, r.group, r.time⟩)

/-- The `tagId` of every tag row is its tag. -/
def FileTables.Named (t : FileTables) : Prop := ∀ r ∈ t.tags.rows, r.tagId = some r.tag

/-! ### Operations -/

theorem lengthOf_eq_zero_iff (wanted : Option String) :
  lengthOf wanted = 0 ↔ wanted = none ∨ wanted = some ""
  := by
  cases wanted with
  | none => simp [lengthOf]
  | some a => simp [lengthOf]

theorem criterion_iff (wanted : Option String) (a : String) :
  criterion wanted a ↔ Asked wanted a
  := by
  rw [criterion, decide_eq_true_iff, lengthOf_eq_zero_iff, Asked, or_assoc, @eq_comm _ (some a)]

/-- A file is saved under its key, if the object can be saved and the database accepts it. -/
theorem lcSaveFile_eq (writes : Bool) (fileM : LCFileM) (files : FileTable) :
  (lcSaveFile writes fileM files).2 =
    match fileM.saved with
    | some (key, file) =>
        if writes then files.insertOrReplace ⟨key, file.md5, file.filePath⟩ else files
    | none => files
  := by
  obtain ⟨key, md5, filePath⟩ := fileM
  cases key with
  | none => rfl
  | some key =>
      cases md5 with
      | none => rfl
      | some md5 =>
          cases filePath with
          | none => rfl
          | some filePath =>
              simp only [lcSaveFile, LCFileM.saved, String.length_eq_zero_iff, ne_eq, ← not_or]
              by_cases hempty : md5 = "" ∨ key = "" ∨ filePath = ""
              · simp only [if_pos hempty, if_neg (not_not_intro hempty)]
              · simp only [if_neg hempty, if_pos hempty]
                cases writes with
                | false => rfl
                | true => rfl

/-- A tag is saved under its name, if the object can be saved and the database accepts it. -/
theorem lcSaveTag_eq (writes : Bool) (tag : LCFileTagM) (tags : TagTable) :
  (lcSaveTag .quoted writes tag tags).2 =
    match tag.mark with
    | some (t, mark) =>
        if writes then tags.insertOrReplace ⟨some t, mark.md5, t, mark.group, mark.time⟩ else tags
    | none => tags
  := by
  obtain ⟨md5, t, group, time⟩ := tag
  cases md5 with
  | none => rfl
  | some md5 =>
      cases t with
      | none => rfl
      | some t =>
          cases group with
          | none => rfl
          | some group =>
              have htagId : LCFileTagM.tagId ⟨some md5, some t, some group, time⟩ = t := rfl
              simp only [lcSaveTag, LCFileTagM.mark, htagId, String.length_eq_zero_iff, ne_eq,
                ← not_or]
              by_cases hempty : md5 = "" ∨ t = ""
              · simp only [if_pos hempty, if_neg (not_not_intro hempty)]
              · simp only [if_neg hempty, if_pos hempty]
                cases writes with
                | false => rfl
                | true => rfl

namespace FileTables

variable {t : FileTables}

/-- An operation whose statement is not accepted does nothing. -/
theorem exec_eq (names : ColumnNames) (op : FileDBOp) :
  t.exec names op = if op.takes names then t.exec .quoted op else t
  := by
  have hself : t.tags.deleteWhere (fun _ => false) = t.tags := by
    apply Table.deleteWhere_eq_self.mpr
    simp
  have hquoted : ∀ group, takesDelete .quoted group = true := by
    simp [takesDelete, ColumnNames.takesGroup]
  cases op with
  | saveFile writes fileM => rfl
  | deleteFileWithMd5 md5 => rfl
  | deleteFileWithMd5s md5s => rfl
  | saveTag writes tag =>
      obtain ⟨md5, tag, group, time⟩ := tag
      cases names with
      | quoted => rfl
      | unquoted =>
          simp only [exec, FileDBOp.takes, ColumnNames.takesGroup, lcSaveTag]
          split
          · simp
          · rfl
  | deleteWithTagId tagId => rfl
  | deleteTag tag md5 group =>
      rw [FileDBOp.takes, exec, exec, lcDeleteTag, lcDeleteTag, hquoted]
      cases takesDelete names group with
      | true => rfl
      | false => simp [hself]
  | deleteTagInGroupAfter group time =>
      cases names with
      | quoted => rfl
      | unquoted =>
          simp [exec, FileDBOp.takes, ColumnNames.takesGroup, lcDeleteTagInGroupAfter, hself]
  | deleteTagInGroupBefore group time =>
      cases names with
      | quoted => rfl
      | unquoted =>
          simp [exec, FileDBOp.takes, ColumnNames.takesGroup, lcDeleteTagInGroupBefore, hself]

/-- Every operation that is accepted keeps the names of the tags. -/
theorem Named.exec_quoted (h : t.Named) (op : FileDBOp) :
  (t.exec .quoted op).Named
  := by
  have hdelete : ∀ p, (⟨t.files, t.tags.deleteWhere p⟩ : FileTables).Named := by
    intro p r hr
    apply h r (Table.mem_deleteWhere.mp hr).1
  cases op with
  | saveFile writes fileM => apply h
  | deleteFileWithMd5 md5 => apply h
  | deleteFileWithMd5s md5s => apply h
  | saveTag writes tag =>
      intro r hr
      rw [FileTables.exec, lcSaveTag_eq] at hr
      simp only at hr
      split at hr
      · split at hr
        · rcases Table.mem_insertOrReplace.mp hr with rfl | ⟨hr, -⟩
          · rfl
          · apply h r hr
        · apply h r hr
      · apply h r hr
  | deleteWithTagId tagId => apply hdelete
  | deleteTag tag md5 group => apply hdelete
  | deleteTagInGroupAfter group time => apply hdelete
  | deleteTagInGroupBefore group time => apply hdelete

/-- Every operation keeps the names of the tags. -/
theorem Named.exec (h : t.Named) (names : ColumnNames) (op : FileDBOp) :
  (t.exec names op).Named
  := by
  rw [exec_eq]
  split
  · apply h.exec_quoted
  · apply h

/-- Every operation that is accepted does to what is held what its name says. -/
theorem holdings_exec_quoted (h : t.Named) (op : FileDBOp) :
  (t.exec .quoted op).holdings = t.holdings.act op
  := by
  -- the marks after a deletion by a condition on the tag and what it marks
  have hdelete : ∀ (p : LCFileTagMRow → Bool) (q : String → Mark → Bool),
      (∀ r : LCFileTagMRow, p r = q r.tag ⟨r.md5, r.group, r.time⟩) →
        (⟨t.files, t.tags.deleteWhere p⟩ : FileTables).holdings
          = { t.holdings with marks := t.holdings.marks.strike q } := by
    intro p q hpq
    have hmarks : (t.tags.deleteWhere p).catalogue (fun r => (⟨r.md5, r.group, r.time⟩ : Mark))
        = t.holdings.marks.strike q := by
      apply Table.catalogue_deleteWhere
      intro r hr k hk
      obtain rfl : r.tag = k := Option.some.inj ((h r hr).symm.trans hk)
      apply hpq
    rw [holdings, hmarks]
    rfl
  cases op with
  | saveFile writes fileM =>
      rw [FileTables.exec, lcSaveFile_eq, Holdings.act]
      split
      · next key file _ =>
          split
          · have hfiles := @Table.catalogue_insertOrReplace _ _ _ LCFileMRow.primary _
              (fun r => (⟨r.md5, r.filePath⟩ : Saved)) t.files
              ⟨key, file.md5, file.filePath⟩ key rfl
            rw [holdings, hfiles]
            rfl
          · rfl
      · rfl
  | deleteFileWithMd5 md5 =>
      have hfiles := @Table.catalogue_deleteWhere _ _ _ LCFileMRow.primary _
        (fun r => (⟨r.md5, r.filePath⟩ : Saved)) t.files (fun r => some r.md5 = md5)
        (fun _ file => some file.md5 = md5) (fun _ _ _ _ => rfl)
      rw [FileTables.exec, lcDeleteFileWithMd5, holdings, hfiles]
      rfl
  | deleteFileWithMd5s md5s =>
      have hfiles := @Table.catalogue_deleteWhere _ _ _ LCFileMRow.primary _
        (fun r => (⟨r.md5, r.filePath⟩ : Saved)) t.files (fun r => r.md5 ∈ md5s)
        (fun _ file => file.md5 ∈ md5s) (fun _ _ _ _ => rfl)
      rw [FileTables.exec, lcDeleteFileWithMd5s, holdings, hfiles]
      rfl
  | saveTag writes tag =>
      rw [FileTables.exec, lcSaveTag_eq, Holdings.act]
      split
      · next name mark _ =>
          split
          · have hmarks := @Table.catalogue_insertOrReplace _ _ _ LCFileTagMRow.primary _
              (fun r => (⟨r.md5, r.group, r.time⟩ : Mark)) t.tags
              ⟨some name, mark.md5, name, mark.group, mark.time⟩ name rfl
            rw [holdings, hmarks]
            rfl
          · rfl
      · rfl
  | deleteWithTagId tagId =>
      -- by the name of the tags, their `tagId` is their tag
      have hmarks : (lcDeleteWithTagId tagId t.tags).catalogue
            (fun r => (⟨r.md5, r.group, r.time⟩ : Mark))
          = t.holdings.marks.strike (fun name _ => tagId = some name) := by
        apply Table.catalogue_deleteWhere
        intro r hr k hk
        have hk' : r.tagId = some k := hk
        simp only [hk']
        cases tagId with
        | none => simp
        | some tagId => simp [eq_comm]
      rw [FileTables.exec, holdings, hmarks]
      rfl
  | deleteTag tag md5 group =>
      apply hdelete
      intro r
      apply Bool.eq_iff_iff.mpr
      rw [Bool.and_eq_true, Bool.and_eq_true, Bool.and_eq_true, criterion_iff, criterion_iff,
        criterion_iff, decide_eq_true_iff, and_assoc]
      apply and_iff_right
      simp [takesDelete, ColumnNames.takesGroup]
  | deleteTagInGroupAfter group time =>
      apply hdelete
      intro r
      simp [eq_comm, ColumnNames.takesGroup]
  | deleteTagInGroupBefore group time =>
      apply hdelete
      intro r
      simp [eq_comm, ColumnNames.takesGroup]

/-- Every operation that is accepted does to what is held what its name says, and every other
operation nothing. -/
theorem holdings_exec (h : t.Named) (names : ColumnNames) (op : FileDBOp) :
  (t.exec names op).holdings = t.holdings.after names op
  := by
  rw [exec_eq, Holdings.after]
  split
  · apply holdings_exec_quoted h
  · rfl

end FileTables

/-! ### Queries -/

/-- The file row is held. -/
def Holdings.HoldsFile (h : Holdings) (r : LCFileMRow) : Prop :=
  h.files r.key = some ⟨r.md5, r.filePath⟩

/-- The tag row is held. -/
def Holdings.HoldsTag (h : Holdings) (r : LCFileTagMRow) : Prop :=
  r.tagId = some r.tag ∧ h.marks r.tag = some ⟨r.md5, r.group, r.time⟩

/-- The queries of the tables are answered from what is held; the queries for tags and for files
without tag, which name `group`, are answered by nothing where they are not accepted. -/
structure AnswersFrom (names : ColumnNames) (h : Holdings) (t : FileTables) : Prop where
  fileWithKey : ∀ key r,
    lcGetFileWithKey key t.files = some r ↔ key = some r.key ∧ h.HoldsFile r
  fileWithMd5 : ∀ md5 r, lcGetFileWithMd5 md5 t.files = some r → md5 = some r.md5 ∧ h.HoldsFile r
  noFileWithMd5 : ∀ md5,
    lcGetFileWithMd5 md5 t.files = none ↔ ∀ r, h.HoldsFile r → md5 ≠ some r.md5
  fileWithfilePath : ∀ filePath r,
    lcGetFileWithfilePath filePath t.files = some r → filePath = some r.filePath ∧ h.HoldsFile r
  noFileWithfilePath : ∀ filePath,
    lcGetFileWithfilePath filePath t.files = none ↔ ∀ r, h.HoldsFile r → filePath ≠ some r.filePath
  tagWithTagId : ∀ tagId r, lcGetTagWithTagId names tagId t.tags = some r ↔
    names.takesGroup ∧ tagId = some r.tag ∧ h.HoldsTag r
  tagWithTag : ∀ tag r, r ∈ lcGetTagWithTag names tag t.tags ↔
    names.takesGroup ∧ tag = some r.tag ∧ h.HoldsTag r
  oneTagWithTag : ∀ tag, (lcGetTagWithTag names tag t.tags).length ≤ 1
  tagWithMd5 : ∀ md5 r, r ∈ lcGetTagWithMd5 names md5 t.tags ↔
    names.takesGroup ∧ md5 = some r.md5 ∧ h.HoldsTag r
  tagWithGroup : ∀ group r, r ∈ lcGetTagWithGroup names group t.tags ↔
    names.takesGroup ∧ group = some r.group ∧ h.HoldsTag r
  noTagFile : ∀ r, r ∈ lcGetNoTagFile names t.files t.tags ↔
    names.takesGroup ∧ h.HoldsFile r ∧ ∀ tag mark, h.marks tag = some mark → mark.md5 ≠ r.md5

namespace FileTables

variable {t : FileTables}

theorem holdsFile_iff {r : LCFileMRow} :
  t.holdings.HoldsFile r ↔ r ∈ t.files.rows
  := by
  rw [Holdings.HoldsFile, holdings, Table.catalogue_eq_some]
  constructor
  · rintro ⟨⟨key, md5, filePath⟩, hmem, hkey, hentry⟩
    cases r
    obtain rfl : key = _ := Option.some.inj hkey
    cases hentry
    apply hmem
  · intro hmem
    exact ⟨r, hmem, rfl, rfl⟩

theorem holdsTag_iff (h : t.Named) {r : LCFileTagMRow} :
  t.holdings.HoldsTag r ↔ r ∈ t.tags.rows
  := by
  rw [Holdings.HoldsTag, holdings, Table.catalogue_eq_some]
  constructor
  · rintro ⟨hid, ⟨tagId, md5, tag, group, time⟩, hmem, hkey, hentry⟩
    have hname := h _ hmem
    cases r
    simp only [LCFileTagMRow.primary] at hkey
    simp only [hkey, Option.some.injEq] at hname hid
    cases hentry
    rw [hkey, ← hname] at hmem
    rw [hid]
    apply hmem
  · intro hmem
    exact ⟨h r hmem, r, hmem, h r hmem, rfl⟩

/-- A query for the first row of a kind. -/
theorem find_spec {ρ : Type} {p : ρ → Prop} [DecidablePred p] {rows : List ρ} {r : ρ}
    (h : rows.find? (fun r => p r) = some r) :
  p r ∧ r ∈ rows
  := ⟨by simpa using List.find?_some h, List.mem_of_find?_eq_some h⟩

theorem lcGetFileWithKey_iff {key : Option String} {r : LCFileMRow} :
  lcGetFileWithKey key t.files = some r ↔ key = some r.key ∧ r ∈ t.files.rows
  := by
  constructor
  · intro hr
    obtain ⟨hkey, hmem⟩ := find_spec hr
    exact ⟨hkey.symm, hmem⟩
  · rintro ⟨rfl, hmem⟩
    exact Table.get_eq_some.mpr ⟨hmem, rfl⟩

variable {names : ColumnNames}

/-- The rows a query for tags answers. -/
theorem mem_selectTags {p : LCFileTagMRow → Bool} {r : LCFileTagMRow} :
  r ∈ selectTags names p t.tags ↔ names.takesGroup ∧ r ∈ t.tags.rows ∧ p r
  := by
  rw [selectTags]
  split
  · next htakes => simp [htakes]
  · next htakes => simp [htakes]

theorem lcGetTagWithTagId_iff {tagId : Option String} {r : LCFileTagMRow} :
  lcGetTagWithTagId names tagId t.tags = some r ↔
    names.takesGroup ∧ (tagId.isSome ∧ r.tagId = tagId) ∧ r ∈ t.tags.rows
  := by
  rw [lcGetTagWithTagId, selectTags]
  split
  · next htakes =>
      rw [List.head?_filter, and_iff_right htakes]
      constructor
      · intro hr
        apply find_spec hr
      · rintro ⟨⟨hsome, htagId⟩, hmem⟩
        obtain ⟨name, rfl⟩ := Option.isSome_iff_exists.mp hsome
        have hget := Table.get_eq_some.mpr ⟨hmem, htagId⟩
        rw [Table.get] at hget
        rw [← hget]
        congr 1
        funext r
        rw [decide_eq_decide, LCFileTagMRow.primary]
        simp
  · next htakes => simp [htakes]

/-- No two tag rows have the same tag. -/
theorem Named.oneTagWithTag (h : t.Named) (tag : Option String) :
  (lcGetTagWithTag names tag t.tags).length ≤ 1
  := by
  have hdiffer :
      (lcGetTagWithTag names tag t.tags).Pairwise (KeysDiffer LCFileTagMRow.primary) := by
    rw [lcGetTagWithTag, selectTags]
    split
    · apply t.tags.differ.sublist List.filter_sublist
    · apply List.Pairwise.nil
  have htag : ∀ r ∈ lcGetTagWithTag names tag t.tags,
      r.tagId = some r.tag ∧ some r.tag = tag := by
    intro r hr
    obtain ⟨-, hmem, heq⟩ := mem_selectTags.mp hr
    exact ⟨h r hmem, of_decide_eq_true heq⟩
  generalize lcGetTagWithTag names tag t.tags = rows at hdiffer htag
  cases rows with
  | nil => exact Nat.zero_le 1
  | cons r rows =>
      cases rows with
      | nil => exact Nat.le_refl 1
      | cons r' rows =>
          obtain ⟨hr, heq⟩ := htag r List.mem_cons_self
          obtain ⟨hr', heq'⟩ := htag r' (List.mem_cons_of_mem r List.mem_cons_self)
          have hne := (List.pairwise_cons.mp hdiffer).1 r' List.mem_cons_self
          apply absurd _ (hne r.tag hr)
          apply hr'.trans (heq'.trans heq.symm)

/-- The files without tag are those whose MD5 is not marked. -/
theorem Named.mem_lcGetNoTagFile_iff (h : t.Named) (r : LCFileMRow) :
  r ∈ lcGetNoTagFile names t.files t.tags ↔ names.takesGroup ∧
    t.holdings.HoldsFile r ∧ ∀ tag mark, t.holdings.marks tag = some mark → mark.md5 ≠ r.md5
  := by
  have hnamed : ∀ tag ∈ t.tags.rows, tag.md5 = r.md5 → tag.tagId ≠ none := by
    intro tag htag _ hnone
    cases hnone.symm.trans (h tag htag)
  rw [mem_lcGetNoTagFile, Swept, untagged_iff hnamed, holdsFile_iff, and_left_comm]
  apply and_congr_right
  intro _
  apply and_congr_right
  intro _
  constructor
  · intro hnot tag mark hmark hmd5
    obtain ⟨row, hrow, -, rfl⟩ := Table.catalogue_eq_some.mp hmark
    apply hnot ⟨row, hrow, hmd5⟩
  · rintro hmarks ⟨row, hrow, hmd5⟩
    apply hmarks row.tag ⟨row.md5, row.group, row.time⟩ _ hmd5
    apply Table.catalogue_eq_some.mpr ⟨row, hrow, h row hrow, rfl⟩

/-- The queries of the tables are answered from what they hold. -/
theorem Named.answersFrom (h : t.Named) :
  AnswersFrom names t.holdings t
  := by
  constructor
  · intro key r
    rw [lcGetFileWithKey_iff, holdsFile_iff]
  · intro md5 r hr
    obtain ⟨hmd5, hmem⟩ := find_spec hr
    exact ⟨hmd5.symm, holdsFile_iff.mpr hmem⟩
  · intro md5
    simp only [lcGetFileWithMd5, List.find?_eq_none, holdsFile_iff]
    simp [eq_comm]
  · intro filePath r hr
    obtain ⟨hfilePath, hmem⟩ := find_spec hr
    exact ⟨hfilePath.symm, holdsFile_iff.mpr hmem⟩
  · intro filePath
    simp only [lcGetFileWithfilePath, List.find?_eq_none, holdsFile_iff]
    simp [eq_comm]
  · intro tagId r
    rw [lcGetTagWithTagId_iff, holdsTag_iff h]
    apply and_congr_right
    intro _
    apply and_congr_left
    intro hmem
    rw [h r hmem]
    constructor
    · rintro ⟨-, heq⟩
      apply heq.symm
    · rintro rfl
      exact ⟨rfl, rfl⟩
  · intro tag r
    rw [lcGetTagWithTag, mem_selectTags, holdsTag_iff h]
    apply and_congr_right
    intro _
    simp [eq_comm, and_comm]
  · apply h.oneTagWithTag
  · intro md5 r
    rw [lcGetTagWithMd5, mem_selectTags, holdsTag_iff h]
    apply and_congr_right
    intro _
    simp [eq_comm, and_comm]
  · intro group r
    rw [lcGetTagWithGroup, mem_selectTags, holdsTag_iff h]
    apply and_congr_right
    intro _
    simp [eq_comm, and_comm]
  · apply h.mem_lcGetNoTagFile_iff

end FileTables

/-! ### Runs -/

/-- The tables of a new database. -/
def FileTables.empty : FileTables := ⟨∅, ∅⟩

/-- Nothing is held. -/
def Holdings.none : Holdings := ⟨fun _ => Option.none, fun _ => Option.none⟩

/-- What is held after every sequence of operations, and that it is named. -/
theorem FileTables.final_holdings (names : ColumnNames) (ops : List FileDBOp) :
  (Run.final (FileTables.exec names) FileTables.empty ops).Named ∧
    (Run.final (FileTables.exec names) FileTables.empty ops).holdings
      = Run.final (Holdings.after names) Holdings.none ops
  := by
  have hempty : FileTables.empty.Named := by
    rintro r ⟨⟩
  have hstep : ∀ (t : FileTables) op, t.Named →
      (t.exec names op).Named ∧ (t.exec names op).holdings = t.holdings.after names op :=
    fun t op h => ⟨h.exec names op, holdings_exec h names op⟩
  have hrun := Run.final_image hstep hempty ops
  exact ⟨Run.final_of_invariant (fun t op h => (hstep t op h).1) hempty ops, hrun⟩

/-- After every sequence of operations of `LCFileDB` the tables hold what the operations do to the
catalogues one after another, and all queries are answered from it. -/
theorem holdings_run (names : ColumnNames) (ops : List FileDBOp) :
  (Run.final (FileTables.exec names) FileTables.empty ops).holdings
      = Run.final (Holdings.after names) Holdings.none ops ∧
    AnswersFrom names (Run.final (Holdings.after names) Holdings.none ops)
      (Run.final (FileTables.exec names) FileTables.empty ops)
  := by
  obtain ⟨hnamed, hrun⟩ := FileTables.final_holdings names ops
  refine ⟨hrun, ?_⟩
  rw [← hrun]
  apply hnamed.answersFrom

/-! ### The file store -/

section

open LCFileSaveService

/-- The tables of a store. -/
def Store.tables (s : Store) : FileTables := ⟨s.files, s.tags⟩

/-- From a store the tables of another are reached by operations of `LCFileDB`. -/
def ByFileDB (names : ColumnNames) (s s' : Store) : Prop :=
  Run.Reaches (FileTables.exec names) (fun _ _ => True) s.tables s'.tables

namespace ByFileDB

variable {names : ColumnNames}

/-- One operation. -/
theorem single {s s' : Store} (op : FileDBOp) (h : s'.tables = s.tables.exec names op) :
  ByFileDB names s s'
  := by
  rw [ByFileDB, h]
  apply Run.Reaches.single trivial

/-- The rows of the files without tag are deleted by one operation. -/
theorem pDeleteNoTagFile (s : Store) :
  ByFileDB names s (LCFileSaveService.pDeleteNoTagFile names s)
  := single (.deleteFileWithMd5s ((lcGetNoTagFile names s.files s.tags).map LCFileMRow.md5)) rfl

/-- The rows of the files without tag are deleted after an operation on the tags. -/
theorem sweep {s : Store} {tags : TagTable} (op : FileDBOp)
    (h : (⟨s.files, tags⟩ : FileTables) = s.tables.exec names op) :
  ByFileDB names s (LCFileSaveService.pDeleteNoTagFile names { s with tags })
  := by
  have htags : ByFileDB names s { s with tags } := single op h
  apply htags.trans (pDeleteNoTagFile _)

/-- A lookup deletes the row it finds, if it does not confirm it, or the row and its tags. -/
theorem confirm (fileM : Option LCFileMRow) (s : Store) :
  ByFileDB names s (LCFileSaveService.confirm names fileM s).2
  := by
  have hforget : ∀ s' : Store, s'.tables = (s.tables.exec names
      (.deleteFileWithMd5 (fileM.map LCFileMRow.md5))).exec names
        (.deleteTag none (fileM.map LCFileMRow.md5) none) → ByFileDB names s s' := by
    intro s' hs'
    rw [ByFileDB, hs']
    exact (Run.Reaches.single trivial).trans (Run.Reaches.single trivial)
  have hexist : ByFileDB names s (pFileExist names fileM s).2 := by
    unfold pFileExist
    simp only
    split
    · split
      · split
        · apply single (.deleteFileWithMd5 (fileM.map LCFileMRow.md5)) rfl
        · apply Run.Reaches.refl
      · apply hforget _ rfl
    · apply hforget _ rfl
  rw [LCFileSaveService.confirm]
  split
  · next heq =>
      rw [heq] at hexist
      apply hexist
  · next heq =>
      rw [heq] at hexist
      apply hexist

/-- A save writes a file and a tag. -/
theorem lcSaveFileFrom (P : Platform) (e : Surroundings) (sourcePath key tag group : Option String)
    (time : Int) (deleteSource : Bool) (s : Store) :
  ByFileDB names s
    (LCFileSaveService.lcSaveFileFrom P names e sourcePath key tag group time deleteSource s).2
  := by
  rw [LCFileSaveService.lcSaveFileFrom]
  split
  · apply Run.Reaches.refl
  · split
    · apply Run.Reaches.refl
    · exact (Run.Reaches.single (e := FileDBOp.saveFile _ _) trivial).trans
        (Run.Reaches.single (e := FileDBOp.saveTag _ _) trivial)

end ByFileDB

/-- The file store changes its tables by operations of `LCFileDB` only. -/
theorem StoreOp.byFileDB (P : Platform) (names : ColumnNames) (op : StoreOp) (s : Store) :
  ByFileDB names s (op.exec P names s)
  := by
  cases op with
  | save saveDir now sourcePath key tag group time deleteSource => apply ByFileDB.lcSaveFileFrom
  | lookup l =>
      rw [StoreOp.exec, Lookup.call_eq_confirm]
      apply ByFileDB.confirm
  | deleteMd5 md5 tag group => apply ByFileDB.sweep (.deleteTag tag md5 group) rfl
  | deleteKey key tag group => apply ByFileDB.sweep (.deleteTag tag _ group) rfl
  | deleteFilePath filePath tag group => apply ByFileDB.sweep (.deleteTag tag _ group) rfl
  | deleteAfter group time => apply ByFileDB.sweep (.deleteTagInGroupAfter group time) rfl
  | deleteBefore group time => apply ByFileDB.sweep (.deleteTagInGroupBefore group time) rfl

/-- After every sequence of operations of the file store its tables hold what operations of
`LCFileDB` do to the catalogues, and all queries are answered from it. -/
theorem holdings_store (P : Platform) (names : ColumnNames) (disk : Disk String Bytes)
    (ops : List StoreOp) :
  ∃ dbOps : List FileDBOp,
    AnswersFrom names (Run.final (Holdings.after names) Holdings.none dbOps)
      (Run.final (fun s op => StoreOp.exec P names op s) ⟨∅, ∅, disk⟩ ops).tables
  := by
  have hstep : ∀ (s : Store) (op : StoreOp), True → True ∧ ByFileDB names s (op.exec P names s) :=
    fun s op _ => ⟨trivial, op.byFileDB P names s⟩
  obtain ⟨dbOps, hfinal, -⟩ := Run.reaches_of_step hstep (s := ⟨∅, ∅, disk⟩) trivial ops
  obtain ⟨hnamed, hrun⟩ := FileTables.final_holdings names dbOps
  have htables : Run.final (FileTables.exec names) FileTables.empty dbOps
      = (Run.final (fun s op => StoreOp.exec P names op s) ⟨∅, ∅, disk⟩ ops).tables := hfinal
  refine ⟨dbOps, ?_⟩
  rw [← hrun, ← htables]
  apply hnamed.answersFrom

end

end LCCFileService
