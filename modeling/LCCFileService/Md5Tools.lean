import LCCFileService.Library.Disk

/-!
# Files and their MD5

The MD5 function itself is a parameter of everything that uses it.
-/

namespace LCCFileService

/-- The bytes of a file. -/
abbrev Bytes : Type := List UInt8

namespace Md5Tools

/-- `fileMD5WithPath:`, where `md5` gives the hexadecimal MD5 of a content. -/
def fileMD5WithPath (md5 : Bytes → String) (path : String) (disk : Disk String Bytes) : String :=
  match disk path with
  | some content => md5 content
  | none => "ERROR GETTING FILE MD5"

end Md5Tools

end LCCFileService
