import Foco.MachineIntegers

/-!
`app/ssh_client/known_hosts.rs`: a host key is written to the known hosts only if its fingerprint
is the one that was confirmed. Reading and writing the file is the SSH library's.
-/
namespace Foco.KnownHosts
open Foco.RustText

/-! ## Fingerprints -/

/-- A SHA-256 digest. -/
structure Digest where
  bytes : List UInt8
  length : bytes.length = 32
deriving DecidableEq

def base64Alphabet : List Char :=
  "ABCDEFGHIJKLMNOPQRSTUVWXYZabcdefghijklmnopqrstuvwxyz0123456789+/".toList

def base64Char (sextet : Nat) : Char := base64Alphabet.getD sextet 'A'

/-- Standard base64, with or without padding. -/
def base64 (padding : Bool) : List UInt8 → Text
  | [] => []
  | [first] =>
    [base64Char (first.toNat / 4), base64Char (first.toNat % 4 * 16)] ++
      if padding then ['=', '='] else []
  | [first, second] =>
    [base64Char (first.toNat / 4), base64Char (first.toNat % 4 * 16 + second.toNat / 16),
      base64Char (second.toNat % 16 * 4)] ++ if padding then ['='] else []
  | first :: second :: third :: rest =>
    [base64Char (first.toNat / 4), base64Char (first.toNat % 4 * 16 + second.toNat / 16),
      base64Char (second.toNat % 16 * 4 + third.toNat / 64), base64Char (third.toNat % 64)] ++
        base64 padding rest

/-- How a digest is shown to the user. -/
def fingerprintText (padding : Bool) (digest : Digest) : Text :=
  "SHA256:".toList ++ base64 padding digest.bytes

def normalizeFingerprint (value : Text) : Text := toAsciiLowercase (trim value)

def fingerprintsEqual (left right : Text) : Bool :=
  normalizeFingerprint left = normalizeFingerprint right

/-! ## Errors -/

inductive SshErrorKind where
  | hostKeyChanged
  | startupFailed

structure HostKeyInfo where
  host : Text
  port : Nat
  algorithm : Text
  fingerprintSha256 : Text
  knownHostsPath : Text

structure SshError where
  kind : SshErrorKind
  message : Text
  hostKey : Option HostKeyInfo

/-! ## Trusting a key -/

/-- What `check_known_hosts_path` fails with. -/
inductive KnownHostsError where
  | keyChanged (line : Nat)
  | other (source : Text)

/-- The part of the SSH library that is used: keys and known hosts files. -/
structure SshLibrary (Key File : Type) where
  /-- The fingerprints are padded. -/
  padding : Bool
  digest : Key → Digest
  algorithm : Key → Text
  check : Text → Nat → Key → File → Except KnownHostsError Bool
  learn : Text → Nat → Key → File → Except Text Unit × File
  /-- A file without entries. -/
  empty : File

variable {Key File : Type}

namespace SshLibrary

/-- Whatever the key and the host, a file without entries does not know it and learns it. -/
def LearnsNewKeys (library : SshLibrary Key File) : Prop :=
  ∀ host port key, library.check host port key library.empty = .ok false ∧
    (library.learn host port key library.empty).1 = .ok ()

variable (library : SshLibrary Key File) (host : Text) (port : Nat) (serverKey : Key)
  (knownHostsPath : Text)

def fingerprint : Text := fingerprintText library.padding (library.digest serverKey)

def hostKeyInfo : HostKeyInfo where
  host := host
  port := port
  algorithm := library.algorithm serverKey
  fingerprintSha256 := library.fingerprint serverKey
  knownHostsPath := knownHostsPath

def learnKnownHostsPath (file : File) : Except SshError Unit × File :=
  match library.learn host port serverKey file with
  | (.ok _, file) => (.ok (), file)
  | (.error source, file) => (.error ⟨.startupFailed, "failed to write known_hosts ".toList ++
      knownHostsPath ++ ": ".toList ++ source, none⟩, file)

/-- `trust_host_key_if_fingerprint_matches`. -/
def trustHostKeyIfFingerprintMatches (expectedFingerprintSha256 : Text) (file : File) :
    Except SshError Unit × File :=
  let info := library.hostKeyInfo host port serverKey knownHostsPath
  if !fingerprintsEqual info.fingerprintSha256 expectedFingerprintSha256 then
    (.error ⟨.hostKeyChanged, "host key fingerprint changed before trust write: expected ".toList ++
      expectedFingerprintSha256 ++ ", got ".toList ++ info.fingerprintSha256, some info⟩, file)
  else match library.check host port serverKey file with
    | .ok true => (.ok (), file)
    | .ok false => library.learnKnownHostsPath host port serverKey knownHostsPath file
    | .error (.keyChanged line) => (.error ⟨.hostKeyChanged, "host key for ".toList ++ host ++
        ":".toList ++ natText port ++ " already differs in known_hosts (line ".toList ++
        natText line ++ "); refusing automatic overwrite".toList, some info⟩, file)
    | .error (.other source) => (.error ⟨.startupFailed,
        "failed to check known_hosts before trust write: ".toList ++ source, none⟩, file)

/-- With the fingerprint of one key confirmed, another one is never trusted or written. -/
def Refuses (confirmed live : Key) : Prop :=
  ∀ host port knownHostsPath file,
    (library.trustHostKeyIfFingerprintMatches host port live knownHostsPath
      (library.fingerprint confirmed) file).1.isOk = false ∧
    (library.trustHostKeyIfFingerprintMatches host port live knownHostsPath
      (library.fingerprint confirmed) file).2 = file

end SshLibrary

/-! ## Fingerprints have no white space -/

theorem visible_base64Char (sextet : Nat) : isWhitespace (base64Char sextet) = false := by
  have visible : ∀ c ∈ base64Alphabet, isWhitespace c = false := by decide
  rw [base64Char, List.getD_eq_getElem?_getD]
  rcases found : base64Alphabet[sextet]? with _ | c
  · decide
  · exact visible c (List.mem_of_getElem? found)

theorem visible_base64 {padding : Bool} {bytes : List UInt8} :
    ∀ c ∈ base64 padding bytes, isWhitespace c = false := by
  have pad (more : Text) (signs : ∀ c ∈ more, c = '=') :
      ∀ c ∈ (if padding then more else []), isWhitespace c = false := by
    intro c mem
    cases padding with
    | true =>
      rw [signs c mem]
      decide
    | false => cases mem
  induction bytes using base64.induct with
  | case1 => simp [base64]
  | case2 first =>
    intro c mem
    obtain char | sign := List.mem_append.mp mem
    · obtain rfl | rfl := by simpa using char
      all_goals exact visible_base64Char _
    · exact pad ['=', '='] (by simp) c sign
  | case3 first second =>
    intro c mem
    obtain char | sign := List.mem_append.mp mem
    · obtain rfl | rfl | rfl := by simpa using char
      all_goals exact visible_base64Char _
    · exact pad ['='] (by simp) c sign
  | case4 first second third rest ih =>
    intro c mem
    obtain char | more := List.mem_append.mp mem
    · obtain rfl | rfl | rfl | rfl := by simpa using char
      all_goals exact visible_base64Char _
    · exact ih c more

theorem trim_of_visible {text : Text} (visible : ∀ c ∈ text, isWhitespace c = false) :
    trim text = text := by
  have start : trimStart text = text := by
    cases text with
    | nil => rfl
    | cons c text => simp [trimStart, visible c List.mem_cons_self]
  rw [trim, start, trimEnd, List.rdropWhile_eq_self_iff]
  intro ne
  rw [visible _ (List.getLast_mem ne)]
  exact Bool.false_ne_true

theorem toAsciiLowercase_append (first second : Text) :
    toAsciiLowercase (first ++ second) = toAsciiLowercase first ++ toAsciiLowercase second :=
  List.map_append

theorem normalizeFingerprint_fingerprintText (padding : Bool) (digest : Digest) :
    normalizeFingerprint (fingerprintText padding digest) =
      toAsciiLowercase "SHA256:".toList ++ toAsciiLowercase (base64 padding digest.bytes) := by
  have visible : ∀ c ∈ fingerprintText padding digest, isWhitespace c = false := by
    intro c mem
    have label : ∀ c ∈ "SHA256:".toList, isWhitespace c = false := by simp [isWhitespace]
    have mem : c ∈ "SHA256:".toList ++ base64 padding digest.bytes := mem
    obtain first | inside := List.mem_append.mp mem
    · exact label c first
    · exact visible_base64 c inside
  rewrite [normalizeFingerprint, trim_of_visible visible]
  exact toAsciiLowercase_append "SHA256:".toList (base64 padding digest.bytes)

/-- Two fingerprints count as equal when their base64 differs in the case of letters only. -/
theorem fingerprintsEqual_iff (padding : Bool) (first second : Digest) :
    fingerprintsEqual (fingerprintText padding first) (fingerprintText padding second) = true ↔
      toAsciiLowercase (base64 padding first.bytes) =
        toAsciiLowercase (base64 padding second.bytes) := by
  rw [fingerprintsEqual, decide_eq_true_eq, normalizeFingerprint_fingerprintText,
    normalizeFingerprint_fingerprintText, List.append_cancel_left_eq]

/-! ## What is refused -/

namespace SshLibrary

variable {library : SshLibrary Key File} {confirmed live : Key}

theorem refuses_of_ne (apart : fingerprintsEqual (library.fingerprint live)
    (library.fingerprint confirmed) = false) : library.Refuses confirmed live := by
  intro host port knownHostsPath file
  have refused : library.trustHostKeyIfFingerprintMatches host port live knownHostsPath
      (library.fingerprint confirmed) file = (.error _, file) :=
    if_pos (by rw [hostKeyInfo, apart]; rfl)
  rw [refused]
  exact ⟨rfl, rfl⟩

/-- A key whose fingerprint counts as the confirmed one is learned where no key is known. -/
theorem not_refuses_of_equal (learns : library.LearnsNewKeys)
    (same : fingerprintsEqual (library.fingerprint live) (library.fingerprint confirmed) = true) :
    ¬library.Refuses confirmed live := by
  intro refuses
  obtain ⟨unknown, learned⟩ := learns [] 22 live
  have trusted : library.trustHostKeyIfFingerprintMatches [] 22 live []
      (library.fingerprint confirmed) library.empty =
        library.learnKnownHostsPath [] 22 live [] library.empty := by
    rw [trustHostKeyIfFingerprintMatches, if_neg (by rw [hostKeyInfo, same]; simp), unknown]
  have failed := (refuses [] 22 [] library.empty).1
  rw [trusted, learnKnownHostsPath] at failed
  generalize library.learn [] 22 live library.empty = outcome at learned failed
  obtain ⟨result, file⟩ := outcome
  cases learned
  cases failed

/-- A key is refused after another one was confirmed exactly when the base64 of their digests
differs in more than the case of letters. -/
theorem refuses_iff (library : SshLibrary Key File) (learns : library.LearnsNewKeys)
    (confirmed live : Key) : library.Refuses confirmed live ↔
      toAsciiLowercase (base64 library.padding (library.digest live).bytes) ≠
        toAsciiLowercase (base64 library.padding (library.digest confirmed).bytes) := by
  rw [Ne, ← fingerprintsEqual_iff]
  constructor
  · exact fun refuses same => not_refuses_of_equal learns same refuses
  · exact fun apart => refuses_of_ne ((Bool.not_eq_true _).mp apart)

end SshLibrary

/-! ## Two keys -/

/-- Keys that are their digests, and files that are lists of entries. -/
def entriesLibrary : SshLibrary Digest (List (Text × Nat × Digest)) where
  padding := false
  digest := id
  algorithm := fun _ => "ssh-ed25519".toList
  check := fun host port key file =>
    match file.findIdx? fun entry => entry.1 = host ∧ entry.2.1 = port with
    | none => .ok false
    | some index => if (host, port, key) ∈ file then .ok true else .error (.keyChanged (index + 1))
  learn := fun host port key file => (.ok (), file ++ [(host, port, key)])
  empty := []

theorem entriesLibrary_learns : entriesLibrary.LearnsNewKeys := fun _ _ _ => ⟨rfl, rfl⟩

/-- The digest of zeros but for its first byte. -/
def digestFrom (first : UInt8) : Digest := ⟨first :: List.replicate 31 0, rfl⟩

/-- The keys with the fingerprints `AAAA…` and `BAAA…`. -/
theorem refuses_other_letter : entriesLibrary.Refuses (digestFrom 0) (digestFrom 4) :=
  (SshLibrary.refuses_iff entriesLibrary entriesLibrary_learns _ _).mpr (by decide)

/-- The keys with the fingerprints `AAAA…` and `aAAA…` have different digests, and the second one is
trusted after the first one was confirmed. -/
theorem not_refuses_other_case :
    ¬∀ confirmed live, entriesLibrary.digest confirmed ≠ entriesLibrary.digest live →
      entriesLibrary.Refuses confirmed live := by
  intro refuses
  have apart : entriesLibrary.digest (digestFrom 0) ≠ entriesLibrary.digest (digestFrom 0x68) := by
    decide
  exact SshLibrary.not_refuses_of_equal entriesLibrary_learns (by decide) (refuses _ _ apart)

end Foco.KnownHosts
