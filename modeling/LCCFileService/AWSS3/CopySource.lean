import Mathlib.Data.List.TakeDrop
import LCCFileService.Library.PercentEncoding
import LCCFileService.AWSS3.LCS3Hander

/-!
# Sources of copies

`lc_copyFile:from:callback:` names the object it copies by the bucket, a slash, and the
percent-encoded key.  How S3 reads this is not part of the repository, whose SDK says only that the
value must be URL encoded: S3 is a parameter here, and it is assumed that it takes what follows the
bucket and the slash as a percent-encoded key.  Whatever the key is, S3 then reads it, if it leaves
the characters as they are which stand for themselves.  If it reads `+` as a space, as in forms, it
does exactly if there is no `+` in the key.
-/

namespace LCCFileService

namespace LCS3Hander

open PercentEncoding

/-- `URLHostAllowedCharacterSet` -/
def URLHostAllowedCharacterSet (c : Char) : Bool :=
  c.isAlphanum || "!$&'()*+,-.:;=[]_~".toList.contains c

/-- The `replicateSource` of the request `lc_copyFile:from:callback:` makes; `%@` writes nil as
`(null)`. -/
def replicateSource (bucket : String) (sourceKey : Option String) : String :=
  bucket ++ "/" ++ (sourceKey.map (encode URLHostAllowedCharacterSet)).getD "(null)"

/-- In forms `+` stands for a space. -/
def formSpace (c : Char) : Char := if c = '+' then ' ' else c

/-- From the source of a copy S3 reads the bucket and the key, which is percent-encoded; a character
that is not is read as `read` says. -/
def ReadsSources (read : Char → Char) (S3 : String → Option (String × String)) : Prop :=
  ∀ bucket key : String, '/' ∉ bucket.toList →
    S3 (bucket ++ "/" ++ key) = (decode read key).map (bucket, ·)

/-- S3 makes the copy that a request with the key and the source asks for. -/
def replicate (S3 : String → Option (String × String)) (bucket source : String)
    (key : Option String) (s : System) : System :=
  match S3 source with
  | some (sourceBucket, sourceKey) =>
      if sourceBucket = bucket then replicateObject (some sourceKey) key s else s
  | none => s

/-- The key nil is read as one that was encoded. -/
theorem encode_null :
  encode URLHostAllowedCharacterSet "(null)" = "(null)"
  := by
  decide +kernel

/-- The source of a copy for nil is that for the key `(null)`. -/
theorem replicateSource_eq (bucket : String) (sourceKey : Option String) :
  replicateSource bucket sourceKey
    = bucket ++ "/" ++ encode URLHostAllowedCharacterSet (sourceKey.getD "(null)")
  := by
  cases sourceKey with
  | none =>
      rw [replicateSource, Option.getD_none, encode_null]
      rfl
  | some key => rfl

/-- The object that a copy names is the one it is to be made from exactly if S3 reads every
character of its key as itself that is not encoded. -/
theorem reads_iff {S3 : String → Option (String × String)} {read : Char → Char}
    (hS3 : ReadsSources read S3) {bucket : String} (hbucket : '/' ∉ bucket.toList)
    (sourceKey : Option String) :
  S3 (replicateSource bucket sourceKey) = some (bucket, sourceKey.getD "(null)") ↔
    ∀ c ∈ (sourceKey.getD "(null)").toList, keeps URLHostAllowedCharacterSet c → read c = c
  := by
  have hpercent : URLHostAllowedCharacterSet '%' = false := by decide
  rw [replicateSource_eq, hS3 bucket _ hbucket, ← decode_encode_eq_iff hpercent,
    Option.map_eq_some_iff]
  simp

/-- The object that a copy names is the one it is to be made from, whatever its key is, if S3 leaves
the characters as they are that are not encoded; if it reads `+` as a space, exactly if there is no
`+` in the key. -/
theorem reads_replicateSource {bucket : String} (hbucket : '/' ∉ bucket.toList)
    (sourceKey : Option String) :
  (∀ S3, ReadsSources id S3 →
    S3 (replicateSource bucket sourceKey) = some (bucket, sourceKey.getD "(null)")) ∧
  ∀ S3, ReadsSources formSpace S3 →
    (S3 (replicateSource bucket sourceKey) = some (bucket, sourceKey.getD "(null)") ↔
      '+' ∉ (sourceKey.getD "(null)").toList)
  := by
  constructor
  · intro S3 hS3
    apply (reads_iff hS3 hbucket sourceKey).mpr
    exact fun _ _ _ => rfl
  · intro S3 hS3
    rw [reads_iff hS3 hbucket sourceKey]
    constructor
    · intro h hplus
      have hspace := h '+' hplus (by decide)
      cases hspace
    · intro h c hc _
      apply if_neg
      rintro rfl
      apply h hc

/-- S3 copies the object with the given key, if it leaves the characters as they are that are not
encoded. -/
theorem replicate_replicateSource {S3 : String → Option (String × String)}
    (hS3 : ReadsSources id S3) {bucket : String} (hbucket : '/' ∉ bucket.toList)
    (sourceKey : String) (key : Option String) (s : System) :
  replicate S3 bucket (replicateSource bucket sourceKey) key s
    = replicateObject (some sourceKey) key s
  := by
  have hread := (reads_iff hS3 hbucket (some sourceKey)).mpr (fun _ _ _ => rfl)
  rw [replicate, hread]
  simp only [if_true, Option.getD_some]

/-! ### A reader -/

/-- Split at the first slash and decode what follows. -/
def splitAndDecode (read : Char → Char) (source : String) : Option (String × String) :=
  match source.toList.dropWhile (· ≠ '/') with
  | _ :: key =>
      (decode read (String.ofList key)).map
        (String.ofList (source.toList.takeWhile (· ≠ '/')), ·)
  | [] => none

theorem readsSources_splitAndDecode (read : Char → Char) :
  ReadsSources read (splitAndDecode read)
  := by
  intro bucket key hbucket
  have hpos : ∀ c ∈ bucket.toList, decide (c ≠ '/') = true := by
    intro c hc
    rw [decide_eq_true_iff]
    rintro rfl
    apply hbucket hc
  have hlist : (bucket ++ "/" ++ key).toList = bucket.toList ++ '/' :: key.toList := by
    rw [String.toList_append, String.toList_append, List.append_assoc]
    rfl
  have htake : (bucket ++ "/" ++ key).toList.takeWhile (· ≠ '/') = bucket.toList := by
    rw [hlist, List.takeWhile_append_of_pos hpos]
    simp
  have hdrop : (bucket ++ "/" ++ key).toList.dropWhile (· ≠ '/') = '/' :: key.toList := by
    rw [hlist, List.dropWhile_append_of_pos hpos]
    rfl
  rw [splitAndDecode, htake, hdrop]
  simp only [String.ofList_toList]

/-- The source of a copy of an object whose key has a slash, a plus sign, a space, a percent sign
and a letter that is not ASCII. -/
theorem reads_files :
  splitAndDecode id (replicateSource "files" (some "a/b+c %ü")) = some ("files", "a/b+c %ü") ∧
    splitAndDecode formSpace (replicateSource "files" (some "a/b+c %ü"))
      ≠ some ("files", "a/b+c %ü")
  := by
  have hreads := @reads_replicateSource "files" (by decide) (some "a/b+c %ü")
  constructor
  · apply hreads.1 _ (readsSources_splitAndDecode id)
  · rw [ne_eq]
    have hplus := hreads.2 _ (readsSources_splitAndDecode formSpace)
    rw [Option.getD_some] at hplus
    rw [hplus]
    decide

end LCS3Hander

end LCCFileService
