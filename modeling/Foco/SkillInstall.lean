import Foco.ApiErrors
import Foco.FileResolution
import Foco.FileTree
import Foco.SkillMarkdown
import Foco.UnixPath

/-!
`app/http/skill_store.rs`: installing the files of a skill. They are checked, written below a
temporary directory next to the destination and renamed to it; an existing destination is
renamed away first and put back if that fails.
-/
namespace Foco.SkillInstall
open Foco.RustText Foco.UnixPath Foco.FileResolution Foco.FileTree Foco.SkillMarkdown Foco.Result

/-! ## The files of a skill -/

def skillFileName : Text := "SKILL.md".toList

def base64Encoding : Text := "base64".toList

structure SkillStoreFile where
  path : Text
  content : Text
  contentEncoding : Option Text := none

/-- `BASE64_STANDARD.decode`. -/
abbrev Base64Decoder := Text → Except Text ByteArray

/-- `String::from_utf8` of a file that is read back. -/
def textOf (bytes : ByteArray) : Option Text := (String.fromUTF8? bytes).map String.toList

/-- `str::as_bytes`. -/
def bytesOf (text : Text) : ByteArray := (String.ofList text).toUTF8

theorem textOf_bytesOf (text : Text) : textOf (bytesOf text) = some text := by
  have valid : (bytesOf text).IsValidUTF8 := (String.ofList text).isValidUTF8
  rw [textOf, String.fromUTF8?, dif_pos valid, Option.map_some]
  exact congrArg some String.toList_ofList

def SkillStoreFile.decodedContent (decode : Base64Decoder) (file : SkillStoreFile) :
    Except ApiError ByteArray :=
  match file.contentEncoding with
  | none => .ok (bytesOf file.content)
  | some encoding =>
    if encoding = base64Encoding then
      (decode file.content).mapError fun source => .badRequest
        ("skill file '".toList ++ file.path ++ "' has invalid base64 content: ".toList ++ source)
    else .error (.badRequest ("skill file '".toList ++ file.path ++
      "' uses unsupported content encoding '".toList ++ encoding ++
      "'; expected text or base64".toList))

def SkillStoreFile.textContent (file : SkillStoreFile) : Except ApiError Text :=
  if file.contentEncoding.isSome then
    .error (.badRequest ("skill file '".toList ++ file.path ++ "' must contain text".toList))
  else .ok file.content

/-- A component that a skill file may have. -/
def isSafePart (part : Text) : Bool := !startsWith ['.'] part ∧ '\x00' ∉ part

/-- `sanitize_skill_file_path`. -/
def sanitizeSkillFilePath (value : Text) : Except ApiError Text :=
  let trimmed := foldBackslashes (trim value)
  if trimmed = [] then .error (.badRequest "skill file path must not be empty".toList)
  else if isAbsolute trimmed then
    .error (.badRequest ("skill file path must be relative: ".toList ++ trimmed))
  else if (pieces trimmed).head? = some ['.'] ∨ !(components trimmed).all isSafePart then
    .error (.badRequest ("unsafe skill file path: ".toList ++ trimmed))
  else if components trimmed = [] then
    .error (.badRequest "skill file path must not be empty".toList)
  else .ok (List.intercalate ['/'] (components trimmed))

/-- `validate_skill_slug`. -/
def validateSkillSlug (value : Text) : Except ApiError Text :=
  let value := trim value
  if value = [] then .error (.badRequest "skill id must not be empty".toList)
  else if startsWith ['.'] value then
    .error (.badRequest ("invalid skill id: ".toList ++ value))
  else if value.all fun c => c.isAlphanum ∨ c = '-' ∨ c = '_' ∨ c = '.' then .ok value
  else .error (.badRequest ("invalid skill id: ".toList ++ value))

/-- The file goes to `SKILL.md`. -/
def SkillStoreFile.isSkillFile (file : SkillStoreFile) : Bool :=
  sanitizeSkillFilePath file.path = .ok skillFileName

/-- The checks of one file in `ensure_skill_files_valid`. -/
def checkSkillFile (decode : Base64Decoder) (file : SkillStoreFile) : Except ApiError Unit := do
  let path ← sanitizeSkillFilePath file.path
  let _ ← file.decodedContent decode
  if path = skillFileName then
    let _ ← file.textContent
    pure ()
  else pure ()

def missingSkillFile : ApiError :=
  .badRequest ("skill files must include ".toList ++ skillFileName)

def ensureSkillFilesValid (decode : Base64Decoder) (files : List SkillStoreFile) :
    Except ApiError Unit := do
  if files = [] then .error (.badRequest "skill detail must include files".toList)
  else
    forM files (checkSkillFile decode)
    if files.any SkillStoreFile.isSkillFile then pure () else .error missingSkillFile

/-- `validate_skill_markdown_matches_slug`: the first file that goes to `SKILL.md` is read. -/
def validateSkillMarkdownMatchesSlug (skillId : Text) (files : List SkillStoreFile) :
    Except ApiError Unit :=
  match files.find? SkillStoreFile.isSkillFile with
  | none => .error missingSkillFile
  | some file => do
    let text ← file.textContent
    let parsed ← (parseSkillMarkdown skillFileName text).mapError ApiError.badRequest
    if parsed.id = skillId then pure ()
    else .error (.badRequest ("skill id '".toList ++ skillId ++ "' does not match ".toList ++
      skillFileName ++ " name '".toList ++ parsed.id ++ "'".toList))

/-- The checks before anything is written. -/
def validateSkill (decode : Base64Decoder) (skillId : Text) (files : List SkillStoreFile) :
    Except ApiError Text := do
  let skillId ← validateSkillSlug skillId
  ensureSkillFilesValid decode files
  validateSkillMarkdownMatchesSlug skillId files
  pure skillId

/-! ## Writing and renaming -/

abbrev SkillWorld := World Text ByteArray

abbrev SkillFault := Fault Text ByteArray

/-- What an operating system error is reported as. -/
def ioFailure (action : String) (path : List Text) (source : Text) : ApiError :=
  .internal (action.toList ++ [' ', '/'] ++ List.intercalate ['/'] path ++ ": ".toList ++ source)

section Install

variable (decode : Base64Decoder) (source : Text) (fault : Option SkillFault)

/-- `write_skill_files`. -/
def writeSkillFiles (world : SkillWorld) (root : List Text) :
    List SkillStoreFile → Except ApiError Unit × SkillWorld
  | [] => (.ok (), world)
  | file :: rest =>
    match sanitizeSkillFilePath file.path with
    | .error error => (.error error, world)
    | .ok relative =>
      let path := root ++ components relative
      let created := world.perform fault (.createDirAll path.dropLast)
      if created.1 then
        match file.decodedContent decode with
        | .error error => (.error error, created.2)
        | .ok content =>
          let written := created.2.perform fault (.write path content)
          if written.1 then writeSkillFiles written.2 root rest
          else (.error (ioFailure "failed to write skill file" path source), written.2)
      else
        (.error (ioFailure "failed to create skill file directory" path.dropLast source), created.2)

/-- The last steps of an install: the temporary directory becomes the destination. -/
def replaceDestination (world : SkillWorld) (destination temporary backup : List Text) :
    Except ApiError (List Text) × SkillWorld :=
  if (world.tree.entry destination).isSome then
    let moved := world.perform fault (.rename destination backup)
    if moved.1 then
      let replaced := moved.2.perform fault (.rename temporary destination)
      if replaced.1 then (.ok destination, (replaced.2.perform fault (.removeDirAll backup)).2)
      else
        let restored := (replaced.2.perform fault (.rename backup destination)).2
        (.error (ioFailure "failed to replace skill directory" destination source),
          (restored.perform fault (.removeDirAll temporary)).2)
    else (.error (ioFailure "failed to prepare existing skill directory" destination source),
      (moved.2.perform fault (.removeDirAll temporary)).2)
  else
    let moved := world.perform fault (.rename temporary destination)
    if moved.1 then (.ok destination, moved.2)
    else (.error (ioFailure "failed to install skill directory" destination source),
      (moved.2.perform fault (.removeDirAll temporary)).2)

/-- `install_skill_files_to_target_dir`; the unique ids are those of the temporary directory and
of the backup. -/
def installSkillFilesToTargetDir (temporaryId backupId : Text) (world : SkillWorld)
    (targetRoot : List Text) (skillId : Text) (files : List SkillStoreFile) (overwrite : Bool) :
    Except ApiError (List Text) × SkillWorld :=
  match validateSkill decode skillId files with
  | .error error => (.error error, world)
  | .ok skillId =>
    let rooted := world.perform fault (.createDirAll targetRoot)
    if !rooted.1 then
      (.error (ioFailure "failed to create skill install root" targetRoot source), rooted.2)
    else
      let destination := targetRoot ++ [skillId]
      if (rooted.2.tree.entry destination).isSome ∧ !overwrite then
        (.error (.conflict ("skill already exists at /".toList ++
          List.intercalate ['/'] destination)), rooted.2)
      else
        let temporary := targetRoot ++ [['.'] ++ skillId ++ ".install-".toList ++ temporaryId]
        let backup := targetRoot ++ [['.'] ++ skillId ++ ".backup-".toList ++ backupId]
        let cleared :=
          if (rooted.2.tree.entry temporary).isSome then
            rooted.2.perform fault (.removeDirAll temporary)
          else (true, rooted.2)
        if !cleared.1 then
          (.error (ioFailure "failed to clear temporary skill directory" temporary source),
            cleared.2)
        else
          let made := cleared.2.perform fault (.createDirAll temporary)
          if !made.1 then
            (.error (ioFailure "failed to create temporary skill directory" temporary source),
              made.2)
          else match writeSkillFiles decode source fault made.2 temporary files with
            | (.error error, world) =>
              (.error error, (world.perform fault (.removeDirAll temporary)).2)
            | (.ok _, world) =>
              replaceDestination source fault world destination temporary backup

end Install

end Foco.SkillInstall
