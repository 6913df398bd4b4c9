import LCCFileService.Library.Loop
import LCCFileService.Library.StreamHash
import LCCFileService.Md5Tools
import Mathlib.Algebra.Ring.Int.Defs
import Mathlib.Algebra.Ring.Nat

/-!
# The MD5 of a file

The three ways in which `Md5Tools` computes an MD5: `fileMD5WithData:` in one call,
`fileMD5WithPath:` and `FileMD5HashCreateWithPath` by reading a file in parts.  `CCMD5` is
what they use of CommonCrypto.  The number of bytes it hashes is a `CC_LONG`, to which a
larger number of bytes read is cut.
-/

namespace LCCFileService

/-! ### The platform -/

/-- A digest, of `CC_MD5_DIGEST_LENGTH` bytes. -/
abbrev Digest : Type := Vector UInt8 16

/-- `CC_MD5_Init`, `CC_MD5_Update` and `CC_MD5_Final`, and `CC_MD5`, which is the three in one
call. -/
structure CCMD5 extends StreamHash UInt8 Digest where
  md5 : Bytes → Digest
  md5_eq : ∀ data, md5 data = toStreamHash.digest data

/-- The conversion to `CC_LONG` or `uint32_t`. -/
def ccLong (n : Int) : Nat := (n % 2 ^ 32).toNat

/-- The conversion to `int`. -/
def cInt (n : Nat) : Int := Int.bmod n (2 ^ 32)

/-- The conversion of a `size_t` to `CFIndex`. -/
def cfIndex (n : UInt64) : Int := Int.bmod n.toNat (2 ^ 64)

/-- What `%02x` gives for a byte. -/
def format02x (b : UInt8) : List Char := (Nat.toDigits 16 b.toNat).leftpad 2 '0'

/-- `stringWithFormat:` with sixteen times `%02x`. -/
def stringWithFormat (result : Digest) : String :=
  String.ofList ([
    result[0], result[1], result[2], result[3],
    result[4], result[5], result[6], result[7],
    result[8], result[9], result[10], result[11],
    result[12], result[13], result[14], result[15]].flatMap format02x)

/-- `snprintf` of a text to a place in a buffer, of which it may write `size` characters. -/
def snprintf (offset size : Nat) (text : List Char) (buffer : List Char) : List Char :=
  let written := text.take (size - 1) ++ ['\x00']
  buffer.take offset ++ written ++ buffer.drop (offset + written.length)

/-- `CFStringCreateWithCString` -/
def cfStringCreateWithCString (buffer : List Char) : String :=
  String.ofList (buffer.takeWhile (· ≠ '\x00'))

/-- What the successive reads of at most `n` bytes give, before they find the end. -/
structure Reads (n : Int) where
  chunks : List Bytes
  nonempty : ∀ bytes ∈ chunks, bytes ≠ []
  bounded : ∀ bytes ∈ chunks, bytes.length ≤ n

namespace Reads

variable {n : Int}

/-- The next read, which is empty at the end, and the reads after it. -/
def next (r : Reads n) : Bytes × Reads n :=
  match h : r.chunks with
  | [] => ([], r)
  | bytes :: chunks =>
      (bytes, {
        chunks
        nonempty := fun b hb => r.nonempty b (h ▸ List.mem_cons_of_mem bytes hb)
        bounded := fun b hb => r.bounded b (h ▸ List.mem_cons_of_mem bytes hb) })

/-- The bytes that are read. -/
def content (r : Reads n) : Bytes := r.chunks.flatten

end Reads

/-- A read stream of which `n` bytes are asked at a time: whether its URL and the stream are made
and it is opened, and whether the read after the successful ones fails instead of finding the
end. -/
structure ReadStream (n : Int) extends Reads n where
  fileURL : Bool
  readStream : Bool
  didOpen : Bool
  fails : Bool

/-- A read stream that is made and opened and does not fail. -/
def Reads.readable {n : Int} (r : Reads n) : ReadStream n where
  toReads := r
  fileURL := true
  readStream := true
  didOpen := true
  fails := false

/-- `CFReadStreamRead`, with the bytes it puts into the buffer and the number it returns. -/
def cfReadStreamRead {n : Int} (stream : ReadStream n) : Bytes × Int × ReadStream n :=
  let (bytes, reads) := stream.next
  (bytes, if bytes = [] ∧ stream.fails then -1 else bytes.length, { stream with toReads := reads })

/-- The number of bytes `FileMD5HashCreateWithPath` asks the read stream for, which is not `0`. -/
def bufferLength (chunkSizeForReadingData : UInt64) : Int :=
  cfIndex (if chunkSizeForReadingData = 0 then 1024 * 8 else chunkSizeForReadingData)

namespace CCMD5

variable (H : CCMD5)

/-- `CC_MD5_Update` with the given number of bytes of a buffer. -/
def ccMd5Update (c : H.Context) (data : Bytes) (len : Nat) : H.Context := H.update c (data.take len)

/-! ### One call -/

/-- `fileMD5WithData:` -/
def fileMD5WithData (data : Bytes) : String :=
  stringWithFormat (H.md5 (data.take (ccLong (cInt data.length))))

/-! ### The loop of `fileMD5WithPath:` -/

/-- The variables of the loop of `fileMD5WithPath:`. -/
structure PathLoop where
  handle : Reads (1 <<< 21)
  md5 : H.Context
  done : Bool

/-- A round of the loop of `fileMD5WithPath:`. -/
def pathRound (l : H.PathLoop) : H.PathLoop :=
  let (fileData, handle) := l.handle.next
  { handle
    md5 := H.ccMd5Update l.md5 fileData (ccLong fileData.length)
    done := l.done || fileData.length = 0 }

/-- `fileMD5WithPath:`, whose loop may take the given number of rounds. -/
def fileMD5WithPath (rounds : Nat) (handle : Option (Reads (1 <<< 21))) : Option String :=
  match handle with
  | none => some "ERROR GETTING FILE MD5"
  | some handle =>
      (Loop.run (fun l => !l.done) H.pathRound rounds ⟨handle, H.init, false⟩).map
        (fun l => stringWithFormat (H.final l.md5))

/-! ### The loops of `FileMD5HashCreateWithPath` -/

/-- The variables of the loop of `FileMD5HashCreateWithPath`; `broken` says that it has been left
by `break`. -/
structure HashLoop (n : Int) where
  stream : ReadStream n
  hashObject : H.Context
  hasMoreData : Bool
  broken : Bool

/-- A round of the loop of `FileMD5HashCreateWithPath`. -/
def hashRound {n : Int} (l : H.HashLoop n) : H.HashLoop n :=
  let (buffer, readBytesCount, stream) := cfReadStreamRead l.stream
  if readBytesCount = -1 then { l with stream, broken := true }
  else if readBytesCount = 0 then { l with stream, hasMoreData := false }
  else
    { l with
      stream
      hashObject := H.ccMd5Update l.hashObject buffer (ccLong readBytesCount) }

end CCMD5

/-- A round of the loop that writes the digits of a digest. -/
def digitRound (digest : Digest) (l : Nat × List Char) : Nat × List Char :=
  (l.1 + 1, snprintf (2 * l.1) 3 (format02x digest[l.1]!) l.2)

namespace CCMD5

variable (H : CCMD5)

/-- `FileMD5HashCreateWithPath`, whose loops may take the given number of rounds, with what is in
the buffer for the digits before; where it gives no string it returns `NULL`. -/
def fileMD5HashCreateWithPath (rounds : Nat) (chunkSizeForReadingData : UInt64)
    (stream : ReadStream (bufferLength chunkSizeForReadingData)) (hash : List Char) :
    Option (Option String) :=
  if stream.fileURL ∧ stream.readStream ∧ stream.didOpen then
    (Loop.run (fun l => l.hasMoreData && !l.broken) H.hashRound rounds
        ⟨stream, H.init, true, false⟩).bind
      (fun l =>
        let didSucceed := !l.hasMoreData
        let digest := H.final l.hashObject
        if didSucceed then
          (Loop.run (fun l => l.1 < 16) (digitRound digest) rounds (0, hash)).map
            (fun l => some (cfStringCreateWithCString l.2))
        else some none)
  else some none

/-- `getFileMD5WithPath:`, with the default chunk size. -/
def getFileMD5WithPath (rounds : Nat) (stream : ReadStream (bufferLength (1024 * 8)))
    (hash : List Char) : Option (Option String) :=
  H.fileMD5HashCreateWithPath rounds (1024 * 8) stream hash

end CCMD5

/-! ### Digits -/

/-- The hexadecimal digits of bytes, two for each. -/
def hexDigits (bytes : Bytes) : List Char :=
  bytes.flatMap (fun b => [Nat.digitChar (b.toNat / 16), Nat.digitChar (b.toNat % 16)])

/-- The hexadecimal digits of a digest. -/
def hexString (digest : Digest) : String := String.ofList (hexDigits digest.toList)

/-- Two digits are what `%02x` gives for any byte. -/
theorem format02x_eq (b : UInt8) :
  format02x b = [Nat.digitChar (b.toNat / 16), Nat.digitChar (b.toNat % 16)]
  := by
  have hall : ∀ n < 256, (Nat.toDigits 16 n).leftpad 2 '0' =
      [Nat.digitChar (n / 16), Nat.digitChar (n % 16)] := by
    decide +kernel
  apply hall b.toNat b.toNat_lt

theorem hexDigits_eq (bytes : Bytes) :
  hexDigits bytes = bytes.flatMap format02x
  := by
  rw [hexDigits]
  apply congrArg (List.flatMap · bytes) (funext (fun b => (format02x_eq b).symm))

theorem hexDigits_append (bytes bytes' : Bytes) :
  hexDigits (bytes ++ bytes') = hexDigits bytes ++ hexDigits bytes'
  := List.flatMap_append

@[simp]
theorem length_hexDigits (bytes : Bytes) :
  (hexDigits bytes).length = 2 * bytes.length
  := by
  induction bytes with
  | nil => rfl
  | cons b bytes ih =>
      rw [hexDigits, List.flatMap_cons, List.length_append, ← hexDigits, ih]
      simp only [List.length_cons, List.length_nil]
      omega

/-- Hexadecimal digits are lower-case digits. -/
theorem mem_hexDigits {c : Char} {bytes : Bytes} (h : c ∈ hexDigits bytes) :
  c ∈ "0123456789abcdef".toList
  := by
  have hall : ∀ n < 16, Nat.digitChar n ∈ "0123456789abcdef".toList := by decide
  obtain ⟨b, -, hc⟩ := List.mem_flatMap.mp h
  have hlt := b.toNat_lt
  simp only [List.mem_cons, List.not_mem_nil, or_false] at hc
  obtain rfl | rfl := hc
  · apply hall
    omega
  · apply hall
    omega

/-- Sixteen times `%02x` gives the digits of the digest. -/
theorem stringWithFormat_eq (digest : Digest) :
  stringWithFormat digest = hexString digest
  := by
  have hlist : digest.toList = [
      digest[0], digest[1], digest[2], digest[3], digest[4], digest[5], digest[6], digest[7],
      digest[8], digest[9], digest[10], digest[11], digest[12], digest[13], digest[14],
      digest[15]] := by
    obtain ⟨⟨bytes⟩, hsize⟩ := digest
    match bytes, hsize with
    | [_, _, _, _, _, _, _, _, _, _, _, _, _, _, _, _], _ => rfl
  rw [hexString, hexDigits_eq, hlist, stringWithFormat]

/-- The digits of the first bytes have been written, and end the string. -/
structure Written (digest : Digest) (l : Nat × List Char) : Prop where
  le : l.1 ≤ 16
  digits : ∃ rest, l.2 = hexDigits (digest.toList.take l.1) ++ rest ∧
    (0 < l.1 → ∃ rest', rest = '\x00' :: rest')

/-- A round writes the digits of the next byte. -/
theorem Written.round {digest : Digest} {l : Nat × List Char} (h : Written digest l)
    (hlt : l.1 < 16) :
  Written digest (digitRound digest l)
  := by
  obtain ⟨-, rest, hrest, -⟩ := h
  have hlength : (hexDigits (digest.toList.take l.1)).length = 2 * l.1 := by
    simp only [length_hexDigits, List.length_take, Vector.length_toList]
    omega
  have hdigits : hexDigits (digest.toList.take (l.1 + 1)) =
      hexDigits (digest.toList.take l.1) ++ format02x digest[l.1]! := by
    have hlt' : l.1 < digest.toList.length := by simpa using hlt
    rw [← List.take_append_getElem hlt', hexDigits_append, hexDigits_eq [_],
      getElem!_pos digest l.1 hlt]
    simp
  have htake : l.2.take (2 * l.1) = hexDigits (digest.toList.take l.1) := by
    rw [hrest, ← hlength, List.take_left]
  refine ⟨hlt, '\x00' :: l.2.drop (2 * l.1 + 3), ?_, fun _ => ⟨_, rfl⟩⟩
  simp only [digitRound, snprintf, hdigits, htake, format02x_eq, List.append_assoc]
  rfl

/-- The loop that writes the digits ends, and the buffer then holds the digits of the digest. -/
theorem exists_digits (digest : Digest) (hash : List Char) :
  ∃ l, cfStringCreateWithCString l.2 = hexString digest ∧
    ∀ rounds, 16 ≤ rounds →
      Loop.run (fun l => l.1 < 16) (digitRound digest) rounds (0, hash) = some l
  := by
  have hround : ∀ l, decide (l.1 < 16) = true → Written digest l →
      Written digest (digitRound digest l) ∧ 16 - (digitRound digest l).1 < 16 - l.1 := by
    intro l hlt h
    have hlt := of_decide_eq_true hlt
    refine ⟨h.round hlt, ?_⟩
    simp only [digitRound]
    omega
  have hstart : Written digest (0, hash) :=
    ⟨Nat.zero_le _, hash, rfl, fun h => absurd h (Nat.lt_irrefl 0)⟩
  obtain ⟨l, ⟨hle, rest, hrest, hend⟩, hexit, hruns⟩ :=
    Loop.exists_run (μ := fun l => 16 - l.1) hround hstart
  have hall : l.1 = 16 := Nat.le_antisymm hle (Nat.le_of_not_lt (of_decide_eq_false hexit))
  obtain ⟨rest', rfl⟩ := hend (by omega)
  refine ⟨l, ?_, hruns⟩
  have htake : digest.toList.take l.1 = digest.toList := by
    apply List.take_of_length_le
    simp [hall]
  rw [cfStringCreateWithCString, hrest, htake, hexString, List.takeWhile_append_of_pos]
  · simp
  · intro c hc
    have hdigit := mem_hexDigits hc
    apply decide_eq_true
    rintro rfl
    revert hdigit
    decide

/-! ### What is hashed of what is read -/

/-- The bytes that are hashed when the chunks are read: of each as many as its `CC_LONG` says. -/
def hashed (chunks : List Bytes) : Bytes :=
  chunks.flatMap (fun bytes => bytes.take (ccLong bytes.length))

@[simp]
theorem ccLong_natCast (n : Nat) :
  ccLong n = n % 2 ^ 32
  := by
  unfold ccLong
  omega

@[simp]
theorem ccLong_cInt (n : Nat) :
  ccLong (cInt n) = n % 2 ^ 32
  := by
  have hmod : Int.bmod n (2 ^ 32) % 2 ^ 32 = n % 2 ^ 32 := Int.bmod_emod
  unfold ccLong cInt
  rw [hmod]
  omega

theorem hashed_append (chunks chunks' : List Bytes) :
  hashed (chunks ++ chunks') = hashed chunks ++ hashed chunks'
  := List.flatMap_append

/-- No more is hashed than is read. -/
theorem length_hashed_le (chunks : List Bytes) :
  (hashed chunks).length ≤ chunks.flatten.length
  := by
  induction chunks with
  | nil => apply Nat.le_refl _
  | cons bytes chunks ih =>
      rw [hashed, List.flatMap_cons, ← hashed, List.flatten_cons, List.length_append,
        List.length_append]
      apply Nat.add_le_add (List.length_take_le' _ _) ih

/-- All that is read is hashed exactly if every read is of less than `2 ^ 32` bytes. -/
theorem hashed_eq_flatten_iff (chunks : List Bytes) :
  hashed chunks = chunks.flatten ↔ ∀ bytes ∈ chunks, bytes.length < 2 ^ 32
  := by
  induction chunks with
  | nil => simp [hashed]
  | cons bytes chunks ih =>
      rw [hashed, List.flatMap_cons, ← hashed, List.flatten_cons, ccLong_natCast,
        List.forall_mem_cons, ← ih]
      constructor
      · intro heq
        have hlength := congrArg List.length heq
        have hle := length_hashed_le chunks
        have hlt := Nat.mod_lt bytes.length (Nat.two_pow_pos 32)
        simp only [List.length_append, List.length_take] at hlength
        have hsmall : bytes.length < 2 ^ 32 := by omega
        refine ⟨hsmall, ?_⟩
        rw [Nat.mod_eq_of_lt hsmall, List.take_length] at heq
        apply List.append_cancel_left heq
      · rintro ⟨hsmall, heq⟩
        rw [Nat.mod_eq_of_lt hsmall, List.take_length, heq]

/-! ### The reads -/

namespace Reads

variable {n : Int}

/-- A read is the next of the chunks, or finds the end. -/
theorem next_cases (r : Reads n) :
  r.next = ([], r) ∧ r.chunks = [] ∨ r.next.1 ≠ [] ∧ r.chunks = r.next.1 :: r.next.2.chunks
  := by
  rw [next]
  split
  · next h => exact Or.inl ⟨rfl, h⟩
  · next bytes chunks h =>
      right
      refine ⟨r.nonempty bytes ?_, h⟩
      rw [h]
      apply List.mem_cons_self

end Reads

namespace CCMD5

variable {H : CCMD5}

/-- What has been hashed are the bytes of the chunks that have been read; the loop is done when
there are no more. -/
structure PathHashed (chunks : List Bytes) (l : H.PathLoop) : Prop where
  read : ∃ before, chunks = before ++ l.handle.chunks ∧ l.md5 = H.update H.init (hashed before)
  done : l.done → l.handle.chunks = []

/-- Where the next of the chunks is hashed, what has been hashed are again the bytes of the chunks
before those that are left. -/
theorem exists_hashed_of_cons {chunks left left' : List Bytes} {bytes : Bytes} {c : H.Context}
    (h : ∃ before, chunks = before ++ left ∧ c = H.update H.init (hashed before))
    (hcons : left = bytes :: left') :
  ∃ before, chunks = before ++ left' ∧
    H.ccMd5Update c bytes (ccLong bytes.length) = H.update H.init (hashed before)
  := by
  obtain ⟨before, hchunks, hhashed⟩ := h
  use before ++ [bytes]
  constructor
  · rw [hchunks, hcons, List.append_assoc]
    rfl
  · rw [hhashed, ccMd5Update, H.update_append, hashed_append]
    simp [hashed]

theorem PathHashed.round {chunks : List Bytes} {l : H.PathLoop} (h : PathHashed chunks l) :
  PathHashed chunks (H.pathRound l)
  := by
  obtain ⟨hnext, hnil⟩ | ⟨hbytes, hcons⟩ := l.handle.next_cases
  · obtain ⟨before, hchunks, hmd5⟩ := h.read
    rw [pathRound, hnext]
    refine ⟨⟨before, hchunks, ?_⟩, fun _ => hnil⟩
    simp only [ccMd5Update, List.take_nil, H.update_nil, hmd5]
  · constructor
    · apply exists_hashed_of_cons h.read hcons
    · intro hdone
      simp only [pathRound, Bool.or_eq_true, decide_eq_true_eq, List.length_eq_zero_iff] at hdone
      obtain hdone | hempty := hdone
      · rw [h.done hdone] at hcons
        cases hcons
      · apply absurd hempty hbytes

/-- The rounds that are left: one for each chunk, and one that finds the end. -/
def PathLoop.left (l : H.PathLoop) : Nat := l.handle.chunks.length + if l.done then 0 else 1

/-- The loop of `fileMD5WithPath:` ends, and has then hashed every read. -/
theorem exists_path (H : CCMD5) (handle : Reads (1 <<< 21)) :
  ∃ l : H.PathLoop, l.md5 = H.update H.init (hashed handle.chunks) ∧
    ∀ rounds, handle.chunks.length + 1 ≤ rounds →
      Loop.run (fun l => !l.done) H.pathRound rounds ⟨handle, H.init, false⟩ = some l
  := by
  have hround : ∀ l : H.PathLoop, (!l.done) = true → PathHashed handle.chunks l →
      PathHashed handle.chunks (H.pathRound l) ∧ (H.pathRound l).left < l.left := by
    intro l hcond h
    refine ⟨h.round, ?_⟩
    have hdone : l.done = false := by simpa using hcond
    obtain ⟨hnext, hnil⟩ | ⟨hbytes, hcons⟩ := l.handle.next_cases
    · simp [PathLoop.left, pathRound, hnext, hdone]
    · simp [PathLoop.left, hcons, pathRound, hdone, hbytes]
  have hstart : PathHashed handle.chunks ⟨handle, H.init, false⟩ :=
    ⟨⟨[], rfl, (H.update_nil _).symm⟩, fun h => absurd h Bool.false_ne_true⟩
  obtain ⟨l, h, hexit, hruns⟩ := Loop.exists_run (μ := PathLoop.left) hround hstart
  refine ⟨l, ?_, hruns⟩
  obtain ⟨before, hchunks, hmd5⟩ := h.read
  have hend : l.handle.chunks = [] := h.done (by simpa using hexit)
  rw [hend, List.append_nil] at hchunks
  rw [hmd5, hchunks]

/-- What has been hashed are the bytes of the chunks that have been read; the loop has no more data
at the end, and is broken where the read fails there. -/
structure StreamHashed {n : Int} (stream : ReadStream n) (l : H.HashLoop n) : Prop where
  read : ∃ before, stream.chunks = before ++ l.stream.chunks ∧
    l.hashObject = H.update H.init (hashed before)
  fails : l.stream.fails = stream.fails
  ended : l.hasMoreData = false → l.stream.chunks = [] ∧ stream.fails = false
  broken : l.broken → l.stream.chunks = [] ∧ stream.fails

/-- A read at the end leaves the loop, or tells it that there is no more data. -/
theorem hashRound_of_end {n : Int} {l : H.HashLoop n}
    (hnext : l.stream.next = ([], l.stream.toReads)) :
  H.hashRound l =
    if l.stream.fails then { l with broken := true } else { l with hasMoreData := false }
  := by
  rw [hashRound, cfReadStreamRead, hnext]
  dsimp only
  split
  · next hfails =>
      rw [if_pos hfails.2]
      rfl
  · next hfails =>
      rw [if_neg (fun h => hfails ⟨rfl, h⟩)]
      rfl

/-- The bytes of a read are hashed, as many as its `CC_LONG` says. -/
theorem hashRound_of_bytes {n : Int} {l : H.HashLoop n} (hbytes : l.stream.next.1 ≠ []) :
  H.hashRound l = { l with
    stream := { l.stream with toReads := l.stream.next.2 }
    hashObject := H.ccMd5Update l.hashObject l.stream.next.1 (ccLong l.stream.next.1.length) }
  := by
  have hlength : (l.stream.next.1.length : Int) ≠ 0 := by
    simpa [List.length_eq_zero_iff] using hbytes
  have hnotFailed : (l.stream.next.1.length : Int) ≠ -1 := by omega
  simp only [hashRound, cfReadStreamRead, hbytes, false_and, if_false, hlength, hnotFailed]

theorem StreamHashed.round {n : Int} {stream : ReadStream n} {l : H.HashLoop n}
    (h : StreamHashed stream l) (hmore : l.hasMoreData) (hbroken : l.broken = false) :
  StreamHashed stream (H.hashRound l)
  := by
  obtain ⟨hnext, hnil⟩ | ⟨hbytes, hcons⟩ := l.stream.next_cases
  · rw [hashRound_of_end hnext]
    split
    · next hfails =>
        refine ⟨h.read, h.fails, h.ended, fun _ => ⟨hnil, ?_⟩⟩
        rw [← h.fails, hfails]
    · next hfails =>
        refine ⟨h.read, h.fails, fun _ => ⟨hnil, ?_⟩, h.broken⟩
        rw [← h.fails]
        apply eq_false_of_ne_true hfails
  · rw [hashRound_of_bytes hbytes]
    refine ⟨exists_hashed_of_cons h.read hcons, h.fails, ?_, ?_⟩
    · intro hended
      rw [hmore] at hended
      cases hended
    · intro hbroken'
      rw [hbroken] at hbroken'
      cases hbroken'

/-- The rounds that are left: one for each chunk, and one in which the read finds the end or
fails. -/
def HashLoop.left {n : Int} (l : H.HashLoop n) : Nat :=
  l.stream.chunks.length + if l.hasMoreData && !l.broken then 1 else 0

/-- The loop of `FileMD5HashCreateWithPath` ends, and has then hashed every read. -/
theorem exists_hash (H : CCMD5) {n : Int} (stream : ReadStream n) :
  ∃ l : H.HashLoop n, l.hashObject = H.update H.init (hashed stream.chunks) ∧
    l.hasMoreData = stream.fails ∧
    ∀ rounds, stream.chunks.length + 1 ≤ rounds →
      Loop.run (fun l => l.hasMoreData && !l.broken) H.hashRound rounds
        ⟨stream, H.init, true, false⟩ = some l
  := by
  have hround : ∀ l : H.HashLoop n, (l.hasMoreData && !l.broken) = true → StreamHashed stream l →
      StreamHashed stream (H.hashRound l) ∧ (H.hashRound l).left < l.left := by
    intro l hcond h
    obtain ⟨hmore, hbroken⟩ : l.hasMoreData = true ∧ l.broken = false := by simpa using hcond
    refine ⟨h.round hmore hbroken, ?_⟩
    obtain ⟨hnext, hnil⟩ | ⟨hbytes, hcons⟩ := l.stream.next_cases
    · rw [hashRound_of_end hnext]
      split
      · simp [HashLoop.left, hmore, hbroken]
      · simp [HashLoop.left, hmore, hbroken]
    · rw [hashRound_of_bytes hbytes]
      simp [HashLoop.left, hcons, hmore, hbroken]
  have hstart : StreamHashed stream (⟨stream, H.init, true, false⟩ : H.HashLoop n) :=
    ⟨⟨[], rfl, (H.update_nil _).symm⟩, rfl, by rintro ⟨⟩, by rintro ⟨⟩⟩
  obtain ⟨l, h, hexit, hruns⟩ := Loop.exists_run (μ := HashLoop.left) hround hstart
  obtain ⟨before, hchunks, hobject⟩ := h.read
  have hended : l.stream.chunks = [] ∧ l.hasMoreData = stream.fails := by
    cases hmore : l.hasMoreData with
    | false =>
        obtain ⟨hnil, hfails⟩ := h.ended hmore
        exact ⟨hnil, hfails.symm⟩
    | true =>
        rw [hmore] at hexit
        obtain ⟨hnil, hfails⟩ := h.broken (by simpa using hexit)
        exact ⟨hnil, hfails.symm⟩
  rw [hended.1, List.append_nil] at hchunks
  refine ⟨l, ?_, hended.2, hruns⟩
  rw [hobject, hchunks]

/-! ### The three ways -/

/-- `fileMD5WithData:` gives the digits of the MD5 of as many bytes as `CC_MD5` can hash. -/
theorem fileMD5WithData_eq (H : CCMD5) (data : Bytes) :
  H.fileMD5WithData data = hexString (H.digest (data.take (data.length % 2 ^ 32)))
  := by
  rw [fileMD5WithData, stringWithFormat_eq, H.md5_eq, ccLong_cInt]

/-- `fileMD5WithPath:` gives the digits of the MD5 of all that is read. -/
theorem fileMD5WithPath_eq (H : CCMD5) (handle : Reads (1 <<< 21)) (rounds : Nat)
    (h : handle.chunks.length + 1 ≤ rounds) :
  H.fileMD5WithPath rounds (some handle) = some (hexString (H.digest handle.content))
  := by
  have hall : hashed handle.chunks = handle.chunks.flatten := by
    rw [hashed_eq_flatten_iff]
    intro bytes hbytes
    have hle := handle.bounded bytes hbytes
    have hshift : (1 <<< 21 : Int) = 2 ^ 21 := by decide
    omega
  obtain ⟨l, hmd5, hruns⟩ := H.exists_path handle
  rw [fileMD5WithPath, hruns rounds h, Option.map_some, stringWithFormat_eq, hmd5, hall]
  rfl

/-- `FileMD5HashCreateWithPath` gives the digits of the MD5 of what is hashed of what is read,
unless a read fails. -/
theorem fileMD5HashCreateWithPath_eq (H : CCMD5) (chunkSizeForReadingData : UInt64)
    (stream : ReadStream (bufferLength chunkSizeForReadingData)) (hash : List Char) (rounds : Nat)
    (h : stream.chunks.length + 16 ≤ rounds)
    (hopen : stream.fileURL ∧ stream.readStream ∧ stream.didOpen) :
  H.fileMD5HashCreateWithPath rounds chunkSizeForReadingData stream hash =
    some (if stream.fails then none else some (hexString (H.digest (hashed stream.chunks))))
  := by
  obtain ⟨l, hobject, hmore, hruns⟩ := H.exists_hash stream
  obtain ⟨l', hdigits, hruns'⟩ := exists_digits (H.final l.hashObject) hash
  rw [fileMD5HashCreateWithPath, if_pos hopen, hruns rounds (by omega), Option.bind_some]
  dsimp only
  rw [hmore, hruns' rounds (by omega), Option.map_some, hdigits, hobject]
  cases stream.fails with
  | true => rfl
  | false => rfl

/-- `FileMD5HashCreateWithPath` gives the digits of the MD5 of the content of a readable file, if
every read is of less than `2 ^ 32` bytes. -/
theorem fileMD5HashCreateWithPath_readable (H : CCMD5) (chunkSizeForReadingData : UInt64)
    (reads : Reads (bufferLength chunkSizeForReadingData)) (hash : List Char) (rounds : Nat)
    (h : reads.chunks.length + 16 ≤ rounds)
    (hsmall : ∀ bytes ∈ reads.chunks, bytes.length < 2 ^ 32) :
  H.fileMD5HashCreateWithPath rounds chunkSizeForReadingData reads.readable hash =
    some (some (hexString (H.digest reads.content)))
  := by
  have hall : hashed reads.chunks = reads.content := (hashed_eq_flatten_iff _).mpr hsmall
  rw [fileMD5HashCreateWithPath_eq H chunkSizeForReadingData reads.readable hash rounds h
    ⟨rfl, rfl, rfl⟩, ← hall]
  rfl

/-- No read of the default chunk size is of too many bytes. -/
theorem getFileMD5WithPath_readable (H : CCMD5) (reads : Reads (bufferLength (1024 * 8)))
    (hash : List Char) (rounds : Nat) (h : reads.chunks.length + 16 ≤ rounds) :
  H.getFileMD5WithPath rounds reads.readable hash = some (some (hexString (H.digest reads.content)))
  := by
  apply fileMD5HashCreateWithPath_readable H _ reads hash rounds h
  intro bytes hbytes
  have hle := reads.bounded bytes hbytes
  have hlength : bufferLength (1024 * 8) = 8192 := by decide
  omega

/-- What `Md5Tools` is taken to compute elsewhere is what it computes by reading the file. -/
theorem fileMD5WithPath_disk (H : CCMD5) (path : String) (disk : Disk String Bytes)
    (handle : Option (Reads (1 <<< 21))) (h : handle.map Reads.content = disk path) :
  ∃ n, ∀ rounds, n ≤ rounds → H.fileMD5WithPath rounds handle =
    some (Md5Tools.fileMD5WithPath (fun content => hexString (H.digest content)) path disk)
  := by
  cases handle with
  | none =>
      use 0
      intro rounds _
      rw [Md5Tools.fileMD5WithPath, ← h]
      rfl
  | some handle =>
      use handle.chunks.length + 1
      intro rounds hrounds
      rw [fileMD5WithPath_eq H handle rounds hrounds, Md5Tools.fileMD5WithPath, ← h]
      rfl

end CCMD5

/-- The reads of at most `n` bytes that give the content. -/
abbrev ReadsOf (n : Int) (content : Bytes) : Type := { r : Reads n // r.content = content }

/-- Whatever CommonCrypto computes and whatever is in the buffer for the digits, the three ways to
compute the MD5 of the content end and give the same string, the 32 lower-case digits of its
digest, as far as the content is not too long for `fileMD5WithData:`. -/
def WaysAgree (chunkSizeForReadingData : UInt64) (content : Bytes)
    (handle : ReadsOf (1 <<< 21) content)
    (stream : ReadsOf (bufferLength chunkSizeForReadingData) content) : Prop :=
  ∀ (H : CCMD5) (hash : List Char), ∃ md5 : String,
    md5 = hexString (H.digest content) ∧
    md5.length = 32 ∧ (∀ c ∈ md5.toList, c ∈ "0123456789abcdef".toList) ∧
    (∃ n, ∀ rounds, n ≤ rounds → H.fileMD5WithPath rounds (some handle.val) = some md5) ∧
    (∃ n, ∀ rounds, n ≤ rounds →
      H.fileMD5HashCreateWithPath rounds chunkSizeForReadingData stream.val.readable hash =
        some (some md5)) ∧
    (content.length < 2 ^ 32 → H.fileMD5WithData content = md5)

theorem length_hexString (digest : Digest) :
  (hexString digest).length = 32
  := by
  simp [hexString]

theorem waysAgree_of_lt {chunkSizeForReadingData : UInt64} {content : Bytes}
    {handle : ReadsOf (1 <<< 21) content}
    {stream : ReadsOf (bufferLength chunkSizeForReadingData) content}
    (h : ∀ bytes ∈ stream.val.chunks, bytes.length < 2 ^ 32) :
  WaysAgree chunkSizeForReadingData content handle stream
  := by
  intro H hash
  refine ⟨_, rfl, length_hexString _, ?_, ⟨handle.val.chunks.length + 1, ?_⟩,
    ⟨stream.val.chunks.length + 16, ?_⟩, ?_⟩
  · intro c hc
    rw [hexString, String.toList_ofList] at hc
    apply mem_hexDigits hc
  · intro rounds hrounds
    rw [H.fileMD5WithPath_eq handle.val rounds hrounds, handle.property]
  · intro rounds hrounds
    rw [H.fileMD5HashCreateWithPath_readable chunkSizeForReadingData stream.val hash rounds hrounds
      h, stream.property]
  · intro hlt
    rw [H.fileMD5WithData_eq, Nat.mod_eq_of_lt hlt, List.take_length]

/-- CommonCrypto as it would be if it computed the given digests. -/
def CCMD5.ofDigest (digest : Bytes → Digest) : CCMD5 where
  toStreamHash := StreamHash.ofDigest digest
  md5 := digest
  md5_eq := fun data => (StreamHash.digest_ofDigest digest data).symm

/-- Digests that tell the content from all else. -/
def tellingDigest (content data : Bytes) : Digest :=
  if data = content then Vector.replicate 16 0 else Vector.replicate 16 1

/-- Where a read is of too many bytes, some hash function tells what is hashed from the content. -/
theorem not_waysAgree_of_le {chunkSizeForReadingData : UInt64} {content : Bytes}
    {handle : ReadsOf (1 <<< 21) content}
    {stream : ReadsOf (bufferLength chunkSizeForReadingData) content}
    {bytes : Bytes} (hbytes : bytes ∈ stream.val.chunks) (hle : 2 ^ 32 ≤ bytes.length) :
  ¬ WaysAgree chunkSizeForReadingData content handle stream
  := by
  intro h
  have hne : hashed stream.val.chunks ≠ content := by
    intro heq
    have hall := (hashed_eq_flatten_iff _).mp (heq.trans stream.property.symm)
    apply absurd (hall bytes hbytes) (Nat.not_lt.mpr hle)
  obtain ⟨_, rfl, -, -, -, ⟨n, hruns⟩, -⟩ := h (CCMD5.ofDigest (tellingDigest content)) []
  have hstream := CCMD5.fileMD5HashCreateWithPath_eq (CCMD5.ofDigest (tellingDigest content))
    chunkSizeForReadingData stream.val.readable [] (max n (stream.val.chunks.length + 16))
    (Nat.le_max_right _ _) ⟨rfl, rfl, rfl⟩
  rw [hruns _ (Nat.le_max_left _ _)] at hstream
  have hdigest : hexString (tellingDigest content content) =
      hexString (tellingDigest content (hashed stream.val.chunks)) := by
    have heq := Option.some.inj (Option.some.inj hstream)
    rwa [CCMD5.ofDigest, StreamHash.digest_ofDigest, StreamHash.digest_ofDigest] at heq
  rw [tellingDigest, if_pos rfl, tellingDigest, if_neg hne] at hdigest
  revert hdigest
  decide

/-- The three ways agree exactly if no read of `FileMD5HashCreateWithPath` is of more bytes than a
`CC_LONG` can say. -/
theorem waysAgree_iff (chunkSizeForReadingData : UInt64) (content : Bytes)
    (handle : ReadsOf (1 <<< 21) content)
    (stream : ReadsOf (bufferLength chunkSizeForReadingData) content) :
  WaysAgree chunkSizeForReadingData content handle stream ↔
    ∀ bytes ∈ stream.val.chunks, bytes.length < 2 ^ 32
  := by
  constructor
  · intro h bytes hbytes
    by_contra hlt
    apply not_waysAgree_of_le hbytes (Nat.le_of_not_lt hlt) h
  · apply waysAgree_of_lt

/-- A file of `2 ^ 32` zeros, read in parts of `2 ^ 21` bytes. -/
def zerosInParts : ReadsOf (1 <<< 21) (List.replicate (2 ^ 32) 0) where
  val := {
    chunks := List.replicate (2 ^ 11) (List.replicate (2 ^ 21) 0)
    nonempty := by
      intro bytes hbytes
      rw [List.eq_of_mem_replicate hbytes, Ne, List.replicate_eq_nil_iff]
      omega
    bounded := by
      intro bytes hbytes
      rw [List.eq_of_mem_replicate hbytes, List.length_replicate]
      decide }
  property := by
    rw [Reads.content, List.flatten_replicate_replicate, ← Nat.pow_add]

/-- The file of zeros, read at once. -/
def zerosAtOnce : ReadsOf (bufferLength 4294967296) (List.replicate (2 ^ 32) 0) where
  val := {
    chunks := [List.replicate (2 ^ 32) 0]
    nonempty := by
      intro bytes hbytes
      rw [List.mem_singleton.mp hbytes, Ne, List.replicate_eq_nil_iff]
      omega
    bounded := by
      intro bytes hbytes
      rw [List.mem_singleton.mp hbytes, List.length_replicate]
      decide }
  property := List.append_nil _

/-- Of `2 ^ 32` bytes read at once, none is hashed. -/
theorem not_waysAgree_zerosAtOnce :
  ¬ WaysAgree 4294967296 (List.replicate (2 ^ 32) 0) zerosInParts zerosAtOnce
  := by
  have hmem : List.replicate (2 ^ 32) 0 ∈ zerosAtOnce.val.chunks := List.mem_singleton_self _
  apply not_waysAgree_of_le hmem (Nat.le_of_eq List.length_replicate.symm)

end LCCFileService
