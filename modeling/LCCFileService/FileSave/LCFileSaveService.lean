import LCCFileService.FileSave.LCFileDB
import LCCFileService.Library.Run

/-!
# The file store

`LCFileSaveService` keeps files on disk under their MD5, a row for every key a file was
saved under, and tags on the MD5; a file without tags is to be deleted.  The operations
act on a `Store`, the two tables and the disk.  `Platform` is what the operations take
from the system: the MD5 of a content and the path a stored file gets.  `Surroundings` is
what a call finds at its time: the dated directory, the clock, and whether the copy, the
move and the two table writes succeed.
-/

namespace LCCFileService

/-- The functions of the system the services call. -/
structure Platform where
  /-- The hexadecimal MD5 of a content. -/
  md5 : Bytes → String
  /-- The path of a stored file, from the directory, the MD5 and the source path, whose
  extension it takes over. -/
  storePath : String → String → String → String

/-- What a call of `lc_saveFileFrom:` finds at its time. -/
structure Surroundings where
  saveDir : String
  now : Int
  copies : Bool := true
  moves : Bool := true
  writesFile : Bool := true
  writesTag : Bool := true

/-- The two tables and the disk. -/
@[ext]
structure Store where
  files : FileTable
  tags : TagTable
  disk : Disk String Bytes

namespace LCFileSaveService

open LCFileDB

/-! ### Private methods -/

/-- One round of the loop of `p_deleteNoTagFile` over the files without tag. -/
def removeFile (disk : Disk String Bytes) (r : LCFileMRow) : Disk String Bytes :=
  if disk.has r.filePath then disk.remove r.filePath else disk

/-- `p_deleteNoTagFile` -/
def pDeleteNoTagFile (names : ColumnNames) (s : Store) : Store :=
  let files := lcGetNoTagFile names s.files s.tags
  { s with
    disk := files.foldl removeFile s.disk
    files := lcDeleteFileWithMd5s (files.map LCFileMRow.md5) s.files }

/-- `p_fileExist:` -/
def pFileExist (names : ColumnNames) (fileM : Option LCFileMRow) (s : Store) : Bool × Store :=
  let md5 := fileM.map LCFileMRow.md5
  match fileM.map LCFileMRow.filePath with
  | some filePath =>
      if s.disk.has filePath then
        if (lcGetTagWithMd5 names md5 s.tags).length = 0 then
          (false, { s with
            files := lcDeleteFileWithMd5 md5 s.files
            disk := s.disk.remove filePath })
        else (true, s)
      else
        (false, { s with
          files := lcDeleteFileWithMd5 md5 s.files
          tags := lcDeleteTag names none md5 none s.tags })
  | none =>
      (false, { s with
        files := lcDeleteFileWithMd5 md5 s.files
        tags := lcDeleteTag names none md5 none s.tags })

/-- `p_copyFile:withMd5:deleteSource:` -/
def pCopyFile (P : Platform) (e : Surroundings) (sourcePath md5 : String)
    (deleteSource : Bool) (s : Store) : Option String × Disk String Bytes :=
  let stored := (lcGetFileWithMd5 (some md5) s.files).filter (fun r => s.disk.has r.filePath)
  match stored with
  | some oldFile => (some oldFile.filePath, s.disk)
  | none =>
      let filePath := P.storePath e.saveDir md5 sourcePath
      if s.disk.has filePath then (some filePath, s.disk)
      else if deleteSource then
        if e.moves then (some filePath, s.disk.move sourcePath filePath) else (none, s.disk)
      else
        if e.copies then (some filePath, s.disk.copy sourcePath filePath) else (none, s.disk)

/-! ### Saving -/

/-- `lc_saveFileFrom:key:tag:group:time:deleteSource:`.  The tag object gets neither the tag
nor the group. -/
def lcSaveFileFrom (P : Platform) (names : ColumnNames) (e : Surroundings)
    (sourcePath key tag _group : Option String) (time : Int) (deleteSource : Bool) (s : Store) :
    Option LCFileM × Store :=
  match sourcePath.filter s.disk.has with
  | none => (none, s)
  | some source =>
      if lengthOf tag = 0 then (none, s)
      else
        let md5 := Md5Tools.fileMD5WithPath P.md5 source s.disk
        let (filePath, disk) := pCopyFile P e source md5 deleteSource s
        let fileM : LCFileM := { key := some (key.getD md5), md5 := some md5, filePath }
        let tagM : LCFileTagM :=
          { md5 := some md5, tag := none, group := none,
            time := if time = 0 then e.now else time }
        (some fileM, {
          files := (lcSaveFile e.writesFile fileM s.files).2
          tags := (lcSaveTag names e.writesTag tagM s.tags).2
          disk })

/-! ### Getting -/

/-- A lookup: the row found, if `p_fileExist:` confirms it. -/
def confirm (names : ColumnNames) (fileM : Option LCFileMRow) (s : Store) :
    Option LCFileMRow × Store :=
  match pFileExist names fileM s with
  | (true, s') => (fileM, s')
  | (false, s') => (none, s')

/-- `lc_getFileWithMd5:` -/
def lcGetFileWithMd5 (names : ColumnNames) (md5 : Option String) (s : Store) :
    Option LCFileMRow × Store :=
  confirm names (LCFileDB.lcGetFileWithMd5 md5 s.files) s

/-- `lc_getFileWithKey:` -/
def lcGetFileWithKey (names : ColumnNames) (key : Option String) (s : Store) :
    Option LCFileMRow × Store :=
  confirm names (LCFileDB.lcGetFileWithKey key s.files) s

/-- `lc_getFileWithFilePath:` -/
def lcGetFileWithFilePath (names : ColumnNames) (filePath : Option String) (s : Store) :
    Option LCFileMRow × Store :=
  confirm names (LCFileDB.lcGetFileWithfilePath filePath s.files) s

/-! ### Deleting -/

section

variable (names : ColumnNames)

/-- `lc_deleteFileWithMd5:tag:group:` -/
def lcDeleteFileWithMd5 (md5 tag group : Option String) (s : Store) : Store :=
  pDeleteNoTagFile names { s with tags := lcDeleteTag names tag md5 group s.tags }

/-- `lc_deleteFileWithKey:tag:group:` -/
def lcDeleteFileWithKey (key tag group : Option String) (s : Store) : Store :=
  lcDeleteFileWithMd5 names ((LCFileDB.lcGetFileWithKey key s.files).map LCFileMRow.md5) tag
    group s

/-- `lc_deleteFileWithFilePath:tag:group:` -/
def lcDeleteFileWithFilePath (filePath tag group : Option String) (s : Store) : Store :=
  lcDeleteFileWithMd5 names ((LCFileDB.lcGetFileWithfilePath filePath s.files).map LCFileMRow.md5)
    tag group s

/-- `lc_deleteFileInGroup:after:` -/
def lcDeleteFileInGroupAfter (group : Option String) (time : Int) (s : Store) : Store :=
  pDeleteNoTagFile names { s with tags := lcDeleteTagInGroupAfter names group time s.tags }

/-- `lc_deleteFileInGroup:before:` -/
def lcDeleteFileInGroupBefore (group : Option String) (time : Int) (s : Store) : Store :=
  pDeleteNoTagFile names { s with tags := lcDeleteTagInGroupBefore names group time s.tags }

end

end LCFileSaveService

end LCCFileService
