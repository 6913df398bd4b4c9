import LCCFileService.Library.Table
import LCCFileService.Md5Tools

/-!
# The tables of the file store

The objects `LCFileM` and `LCFileTagM` with their possibly nil fields, the rows the tables
`LCFileM` and `LCFileTagM` hold of them, and the operations of `LCFileDB`.  A comparison of
a column with nil is a comparison with `NULL` and holds of no row.

The column `group` of the table `LCFileTagM` has the name of a reserved word.  `ColumnNames`
is how WCDB writes the names of columns into its statements: a statement that names `group`
without quotes is a syntax error, and then inserts, deletes and answers no row.  This is what
the WCDB of the repository does, where for the same reason the table itself is never created;
the table without rows stands for it.
-/

namespace LCCFileService

/-- The length of a string, which is `0` for nil. -/
def lengthOf (a : Option String) : Nat := a.elim 0 String.length

/-- A file object. -/
structure LCFileM where
  key : Option String
  md5 : Option String
  filePath : Option String
  deriving DecidableEq

/-- A row of the table `LCFileM`, whose columns are not null. -/
structure LCFileMRow where
  key : String
  md5 : String
  filePath : String
  deriving DecidableEq

/-- The primary key of the table `LCFileM`. -/
def LCFileMRow.primary (r : LCFileMRow) : Option String := some r.key

/-- A tag object. -/
structure LCFileTagM where
  md5 : Option String
  tag : Option String
  group : Option String
  time : Int
  deriving DecidableEq

/-- The getter `tagId`, which gives the tag when there is one. -/
def LCFileTagM.tagId (t : LCFileTagM) : String :=
  t.tag.getD ("(null)_" ++ t.group.getD "(null)")

/-- A row of the table `LCFileTagM`, whose columns other than `tagId` are not null. -/
structure LCFileTagMRow where
  tagId : Option String
  md5 : String
  tag : String
  group : String
  time : Int
  deriving DecidableEq

/-- The primary key of the table `LCFileTagM`. -/
def LCFileTagMRow.primary (r : LCFileTagMRow) : Option String := r.tagId

/-- The table `LCFileM`. -/
abbrev FileTable : Type := Table LCFileMRow.primary

/-- The table `LCFileTagM`. -/
abbrev TagTable : Type := Table LCFileTagMRow.primary

/-- How WCDB writes the names of columns into statements. -/
inductive ColumnNames where
  | quoted
  | unquoted
  deriving DecidableEq

/-- SQLite accepts a statement that names the column `group`. -/
def ColumnNames.takesGroup : ColumnNames → Bool
  | quoted => true
  | unquoted => false

namespace LCFileDB

/-! ### LCFileM -/

/-- `lc_saveFile:`, where `writes` says whether the database accepts the write. -/
def lcSaveFile (writes : Bool) (fileM : LCFileM) (files : FileTable) : Bool × FileTable :=
  match fileM.key, fileM.md5, fileM.filePath with
  | some key, some md5, some filePath =>
      if md5.length = 0 ∨ key.length = 0 ∨ filePath.length = 0 then (false, files)
      else if writes then (true, files.insertOrReplace ⟨key, md5, filePath⟩)
      else (false, files)
  | _, _, _ => (false, files)

/-- `lc_getFileWithMd5:` -/
def lcGetFileWithMd5 (md5 : Option String) (files : FileTable) : Option LCFileMRow :=
  files.rows.find? (fun r => some r.md5 = md5)

/-- `lc_getFileWithKey:` -/
def lcGetFileWithKey (key : Option String) (files : FileTable) : Option LCFileMRow :=
  files.rows.find? (fun r => some r.key = key)

/-- `lc_getFileWithfilePath:` -/
def lcGetFileWithfilePath (filePath : Option String) (files : FileTable) : Option LCFileMRow :=
  files.rows.find? (fun r => some r.filePath = filePath)

/-- `lc_deleteFileWithMd5:` -/
def lcDeleteFileWithMd5 (md5 : Option String) (files : FileTable) : FileTable :=
  files.deleteWhere (fun r => some r.md5 = md5)

/-- `lc_deleteFileWithMd5s:` -/
def lcDeleteFileWithMd5s (md5s : List String) (files : FileTable) : FileTable :=
  files.deleteWhere (fun r => r.md5 ∈ md5s)

/-! ### LCFileTagM -/

/-- `lc_saveTag:`, whose statement names all columns; `writes` says whether the database accepts
the write. -/
def lcSaveTag (names : ColumnNames) (writes : Bool) (tag : LCFileTagM) (tags : TagTable) :
    Bool × TagTable :=
  match tag.md5, tag.tag, tag.group with
  | some md5, some t, some group =>
      if md5.length = 0 ∨ t.length = 0 then (false, tags)
      else if names.takesGroup && writes then
        (true, tags.insertOrReplace ⟨some tag.tagId, md5, t, group, tag.time⟩)
      else (false, tags)
  | _, _, _ => (false, tags)

/-- The answer to a query for the tag rows satisfying `p`, which names all columns. -/
def selectTags (names : ColumnNames) (p : LCFileTagMRow → Bool) (tags : TagTable) :
    List LCFileTagMRow :=
  if names.takesGroup then tags.rows.filter p else []

/-- `lc_getTagWithMd5:` -/
def lcGetTagWithMd5 (names : ColumnNames) (md5 : Option String) (tags : TagTable) :
    List LCFileTagMRow :=
  selectTags names (fun r => some r.md5 = md5) tags

/-- `lc_getTagWithTagId:` -/
def lcGetTagWithTagId (names : ColumnNames) (tagId : Option String) (tags : TagTable) :
    Option LCFileTagMRow :=
  (selectTags names (fun r => tagId.isSome ∧ r.tagId = tagId) tags).head?

/-- `lc_getTagWithTag:` -/
def lcGetTagWithTag (names : ColumnNames) (tag : Option String) (tags : TagTable) :
    List LCFileTagMRow :=
  selectTags names (fun r => some r.tag = tag) tags

/-- `lc_getTagWithGroup:` -/
def lcGetTagWithGroup (names : ColumnNames) (group : Option String) (tags : TagTable) :
    List LCFileTagMRow :=
  selectTags names (fun r => some r.group = group) tags

/-- `lc_deleteWithTagId:`, whose statement does not name `group`. -/
def lcDeleteWithTagId (tagId : Option String) (tags : TagTable) : TagTable :=
  tags.deleteWhere (fun r => tagId.isSome ∧ r.tagId = tagId)

/-- A criterion of `lc_deleteTag:md5:inGroup:`, which an empty or nil string leaves out. -/
def criterion (wanted : Option String) (column : String) : Bool :=
  lengthOf wanted = 0 ∨ some column = wanted

/-- SQLite accepts the statement of `lc_deleteTag:md5:inGroup:`, which names `group` if there is
a criterion for it. -/
def takesDelete (names : ColumnNames) (group : Option String) : Bool :=
  names.takesGroup ∨ lengthOf group = 0

/-- `lc_deleteTag:md5:inGroup:` -/
def lcDeleteTag (names : ColumnNames) (tag md5 group : Option String) (tags : TagTable) :
    TagTable :=
  tags.deleteWhere (fun r => takesDelete names group &&
    (criterion tag r.tag && criterion md5 r.md5 && criterion group r.group))

/-- `lc_deleteTagInGroup:after:` -/
def lcDeleteTagInGroupAfter (names : ColumnNames) (group : Option String) (time : Int)
    (tags : TagTable) : TagTable :=
  tags.deleteWhere (fun r => names.takesGroup && (some r.group = group ∧ r.time ≥ time))

/-- `lc_deleteTagInGroup:before:` -/
def lcDeleteTagInGroupBefore (names : ColumnNames) (group : Option String) (time : Int)
    (tags : TagTable) : TagTable :=
  tags.deleteWhere (fun r => names.takesGroup && (some r.group = group ∧ r.time ≤ time))

/-! ### Files and tags -/

/-- The rows of the left outer join of one file row with the tag table on `md5`. -/
def joinTags (tags : TagTable) (f : LCFileMRow) : List (LCFileMRow × Option LCFileTagMRow) :=
  match tags.rows.filter (fun r => f.md5 = r.md5) with
  | [] => [(f, none)]
  | rs => rs.map (fun r => (f, some r))

/-- `lc_getNoTagFile`: the file rows of the join whose `tagId` is null; the query names all
columns of both tables. -/
def lcGetNoTagFile (names : ColumnNames) (files : FileTable) (tags : TagTable) :
    List LCFileMRow :=
  if names.takesGroup then
    ((files.rows.flatMap (joinTags tags)).filter
      (fun j => (j.2.bind LCFileTagMRow.tagId).isNone)).map Prod.fst
  else []

end LCFileDB

end LCCFileService
