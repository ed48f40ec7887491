import Teitunnel.Lib.Base64
import Teitunnel.Lib.Files
import Teitunnel.Lib.Sha256
import Teitunnel.Lib.Text

/-!
# A folder's files

The files of a folder that a Snapshot publishes: each is hashed for Cloudflare, and secrets,
tooling and links out of the folder are left out.
-/

namespace Teitunnel.Snapshots

open Text Files

/-- A name in a folder, which may be no text. -/
inductive FileName where
  | text (name : String)
  | bytes (name : List UInt8)
  deriving DecidableEq

def FileName.toStr : FileName → Option String
  | .text name => some name
  | .bytes _ => none

abbrev Node := Files.Node FileName

/-- Most files of one version. -/
def MAX_FILES : ℕ := 20000

/-- Largest file: 25 MiB. -/
def MAX_FILE_SIZE : ℕ := 25 * 1024 * 1024

inductive SkipReason where
  | hidden
  | secret
  | versionControl
  | dependencies
  | link
  | special
  | name
  deriving DecidableEq

/-- A file left out. -/
structure Skipped where
  path : List FileName
  reason : SkipReason

/-- A file to publish. -/
structure SiteFile where
  /-- URL path. -/
  path : String
  hash : String
  size : ℕ
  contentType : String
  deriving DecidableEq

inductive SnapshotError where
  | notAFolder
  | empty
  | tooManyFiles (max : ℕ)
  | fileTooLarge (path : String)
  | io
  deriving DecidableEq

/-- The extension of a path's last name. -/
def extension (path : String) : Option String :=
  (rsplitOnce '.' ((split '/' path).getLast?.getD "")).bind fun (before, after) =>
    if before = "" then none else some after

/-- Extensions and the media types they are served with. -/
def contentTypes : List (List String × String) :=
  [(["html", "htm"], "text/html; charset=utf-8"), (["css"], "text/css; charset=utf-8"),
   (["js", "mjs", "cjs"], "text/javascript; charset=utf-8"), (["json", "map"], "application/json"),
   (["webmanifest"], "application/manifest+json"), (["xml"], "application/xml"),
   (["txt", "md"], "text/plain; charset=utf-8"), (["csv"], "text/csv; charset=utf-8"),
   (["svg"], "image/svg+xml"), (["png"], "image/png"), (["jpg", "jpeg"], "image/jpeg"),
   (["gif"], "image/gif"), (["webp"], "image/webp"), (["avif"], "image/avif"),
   (["ico"], "image/x-icon"), (["woff"], "font/woff"), (["woff2"], "font/woff2"),
   (["ttf"], "font/ttf"), (["otf"], "font/otf"), (["wasm"], "application/wasm"),
   (["pdf"], "application/pdf"), (["mp4"], "video/mp4"), (["webm"], "video/webm"),
   (["mp3"], "audio/mpeg"), (["wav"], "audio/wav"), (["zip"], "application/zip")]

/-- The media type a file is served with, by extension. -/
def contentType (path : String) : String :=
  let ext := toAsciiLowercase ((extension path).getD "")
  ((contentTypes.find? fun entry => ext ∈ entry.1).map Prod.snd).getD "application/octet-stream"

/-- Two hexadecimal digits. -/
def hexByte (b : UInt8) : List Char := [Nat.digitChar (b.toNat / 16), Nat.digitChar (b.toNat % 16)]

/-- The hash that Cloudflare knows a file by. -/
def contentHash (content : List UInt8) (path : String) : String :=
  let hashed := Sha256.bytes (utf8 (Base64.encodePadded .standard content) ++ utf8 ((extension path).getD ""))
  String.ofList ((hashed.take 16).flatMap hexByte)

/-- Names that are secrets wherever they are. -/
def isSecret (name : String) : Bool :=
  let lower := toAsciiLowercase name
  StartsWith ".env" lower ||
    ([".pem", ".key", ".p12", ".pfx", ".keystore", ".jks"].any fun ext => EndsWith ext lower) ||
    lower ∈ ["id_rsa", "id_dsa", "id_ecdsa", "id_ed25519", ".npmrc", ".netrc", ".pgpass"]

def skipReason (name : String) (isDir : Bool) : Option SkipReason :=
  if isSecret name then some .secret
  else if name ∈ [".git", ".hg", ".svn"] then some .versionControl
  else if name = "node_modules" then some .dependencies
  else if name = ".well-known" ∧ isDir then none
  else if StartsWith "." name then some .hidden
  else none

/-- Whether a file or folder name may be published. -/
def servable (name : String) (isDir : Bool) : Bool := (skipReason name isDir).isNone

/-- Names of one folder differ, and none that is text has a slash. -/
def Proper (node : Node) : Prop :=
  ∀ path entries, node.get path = some (.dir entries) →
    (entries.map Prod.fst).Nodup ∧ ∀ s node', (FileName.text s, node') ∈ entries → '/' ∉ s.toList

/-- A file system. -/
structure Disk where
  root : Node
  proper : Proper root

/-- Where a folder really is on a disk, and how many links a path may go through. -/
structure Place where
  disk : Disk
  limit : ℕ
  folder : List FileName

/-- What has been found so far. -/
structure Walk where
  files : List SiteFile := []
  skipped : List Skipped := []

def Walk.skip (w : Walk) (path : List FileName) (reason : SkipReason) : Walk :=
  { w with skipped := w.skipped ++ [{ path, reason }] }

/-- A path relative to the folder as a text. -/
def relative (path : List FileName) : Option String :=
  (path.mapM FileName.toStr).map (String.intercalate "/")

/-- A file as it is published. -/
def siteFile (path : String) (bytes : List UInt8) : SiteFile where
  path
  hash := contentHash bytes path
  size := bytes.length
  contentType := contentType path

/-- A regular file is put to those to publish. -/
def Walk.push (w : Walk) (path : List FileName) (bytes : List UInt8) : Except SnapshotError Walk :=
  match relative path with
  | none => .ok (w.skip path .name)
  | some relative =>
      let url := "/" ++ relative
      if MAX_FILE_SIZE < bytes.length then .error (.fileTooLarge url)
      else if MAX_FILES ≤ w.files.length then .error (.tooManyFiles MAX_FILES)
      else .ok { w with files := w.files ++ [siteFile url bytes] }

/-- The bytes of the regular file inside the folder that a link leads to. -/
def linked (place : Place) (path : List FileName) : Option (List UInt8) :=
  (place.disk.root.canonicalize place.limit [] ((place.folder ++ path).map .name)).bind fun target =>
    match place.disk.root.get target with
    | some (.file bytes) => if place.folder <+: target then some bytes else none
    | _ => none

/-- Files at the top that are configuration. -/
def CONFIG : List String := ["_headers", "_redirects"]

/-- Whether an entry of a folder is read as configuration. -/
def isConfig (dir : List FileName) (name : String) : Bool := dir.isEmpty && CONFIG.contains name

mutual

/-- What is at a path that may be published. -/
def visit (place : Place) (path : List FileName) : Node → Walk → Except SnapshotError Walk
  | .dir entries, w => visitAll place path entries w
  | .link _ _, w =>
      match linked place path with
      | some bytes => w.push path bytes
      | none => .ok (w.skip path .link)
  | .file bytes, w => w.push path bytes
  | .special, w => .ok (w.skip path .special)
termination_by structural node => node

/-- The entries of a folder, by name. -/
def visitAll (place : Place) (dir : List FileName) :
    List (FileName × Node) → Walk → Except SnapshotError Walk
  | [], w => .ok w
  | entry :: rest, w => do
      let w ← visitEntry place dir entry w
      visitAll place dir rest w
termination_by structural entries => entries

/-- An entry of a folder. -/
def visitEntry (place : Place) (dir : List FileName) :
    FileName × Node → Walk → Except SnapshotError Walk
  | (.bytes name, _), w => .ok (w.skip (dir ++ [.bytes name]) .name)
  | (.text name, node), w =>
      let path := dir ++ [.text name]
      match skipReason name node.isDir with
      | some reason => .ok (w.skip path reason)
      | none =>
          if isConfig dir name then .ok w
          else visit place path node w
termination_by structural entry => entry

end

section equations

variable {place : Place} {path dir : List FileName} {w : Walk}

lemma visit_file {bytes : List UInt8} : visit place path (.file bytes) w = w.push path bytes := rfl

lemma visit_dir {entries : List (FileName × Node)} :
    visit place path (.dir entries) w = visitAll place path entries w := rfl

lemma visit_link {absolute : Bool} {target : List (Component FileName)} :
    visit place path (.link absolute target) w =
      match linked place path with
      | some bytes => w.push path bytes
      | none => .ok (w.skip path .link) := rfl

lemma visit_special : visit place path .special w = .ok (w.skip path .special) := rfl

lemma visitAll_cons {entry : FileName × Node} {rest : List (FileName × Node)} :
    visitAll place dir (entry :: rest) w =
      (visitEntry place dir entry w >>= visitAll place dir rest) := rfl

attribute [local irreducible] skipReason isConfig in
lemma visitEntry_text {name : String} {node : Node} :
    visitEntry place dir (.text name, node) w =
      match skipReason name node.isDir with
      | some reason => .ok (w.skip (dir ++ [.text name]) reason)
      | none =>
          if isConfig dir name then .ok w
          else visit place (dir ++ [.text name]) node w := rfl

end equations

/-- A configuration file at the top: read unless it is a link. -/
def readConfig (place : Place) (name : String) : Except SnapshotError (Option String) :=
  match place.disk.root.get (place.folder ++ [.text name]) with
  | some (.file bytes) =>
      match String.fromUTF8? ⟨bytes.toArray⟩ with
      | some text => .ok (some text)
      | none => .error .io
  | _ => .ok none

/-- What a folder yields. -/
structure Collected where
  root : List FileName
  files : List SiteFile
  headers : Option String
  redirects : Option String
  skipped : List Skipped

/-- Collects the files under a folder. -/
def collect (disk : Disk) (limit : ℕ) (folder : List (Component FileName)) :
    Except SnapshotError Collected := do
  let folder ← (disk.root.canonicalize limit [] folder).elim (.error .io) .ok
  let place : Place := { disk, limit, folder }
  let entries ← match disk.root.get folder with
    | some (.dir entries) => .ok entries
    | _ => .error .notAFolder
  let w ← visitAll place [] entries {}
  if w.files = [] then .error .empty
  else do
    let headers ← readConfig place "_headers"
    let redirects ← readConfig place "_redirects"
    return { root := folder,
             files := w.files.insertionSort fun file other => file.path ≤ other.path,
             headers, redirects, skipped := w.skipped }

end Teitunnel.Snapshots
