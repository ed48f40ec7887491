import Teitunnel.Lens.Http
import Teitunnel.Lib.Uris
import Teitunnel.Ownership
import Teitunnel.Snapshots.Content

/-!
# Serving a folder

A request's path is decoded once and split into names; dots that lead up and names that may not be
served are refused.  What the names lead to, links followed, must lie in the folder and have only
names that may be served.  A file is sent whole, or the one range of it that was asked for.
-/

namespace Teitunnel.Lens

/-- With a header, if its text may be one. -/
def HeaderMap.insertText (headers : HeaderMap) (name value : String) : HeaderMap :=
  match HeaderValue.fromStr value with
  | some value => headers.insert name value
  | none => headers

/-- The text of the first value of `name`. -/
def HeaderMap.getText? (headers : HeaderMap) (name : String) : Option String :=
  (headers.get? name).bind HeaderValue.toStr

namespace Upstream

open Text Files
open Snapshots (FileName)

/-- Bytes read at once. -/
def CHUNK : ℕ := 64 * 1024

/-- What the code calls that is not its own. -/
structure Foreign where
  /-- The date of an HTTP header, in nanoseconds of Unix time. -/
  parseHttpDate : String → Option ℤ
  fmtHttpDate : ℤ → String
  /-- The type and the essence of the media type that a file's name stands for. -/
  mime : List FileName → String × String
  /-- A name that is no UTF-8, with replacement characters. -/
  lossy : List UInt8 → String

/-- A file system: its tree, how many links a path may go through, and when a file was modified,
in nanoseconds of Unix time. -/
structure FileSystem where
  root : Files.Node FileName
  limit : ℕ
  modified : List FileName → Option ℤ

/-- Which names may be served; without a rule, all. -/
abbrev NameFilter := Option (String → Bool → Bool)

def NameFilter.allows (filter : NameFilter) (name : String) (isDir : Bool) : Bool :=
  match filter with
  | some allow => allow name isDir
  | none => true

structure FolderConfig where
  root : List (Component FileName)
  /-- Serve `index.html` for directory requests. -/
  index : Bool
  /-- Show a listing for directories without an index file. -/
  listing : Bool
  /-- Serve `/index.html` for unknown paths that accept HTML. -/
  spaFallback : Bool
  /-- Serve dotfiles. -/
  hidden : Bool
  allow : NameFilter

/-- A folder being served. -/
structure Folder where
  config : FolderConfig
  root : List FileName

/-- The folder of a configuration, if there is one. -/
def Folder.new (fs : FileSystem) (config : FolderConfig) : Option Folder := do
  let root ← fs.root.canonicalize fs.limit [] config.root
  let node ← fs.root.get root
  if node.isDir then some { config, root } else none

/-! ## Answers -/

/-- A file being sent: what is left of it from where it is read, and how much of that goes. -/
structure FileBody where
  file : List UInt8
  remaining : ℕ
  deriving DecidableEq

/-- What reading a file gives: nothing yet, an error, or at most so many bytes and one. -/
inductive Read where
  | pending
  | failed
  | bytes (n : ℕ)
  deriving DecidableEq

/-- What polling a file body gives. -/
inductive Polled where
  | pending
  | failed
  | data (bytes : List UInt8)
  | done
  deriving DecidableEq

def FileBody.pollFrame (self : FileBody) (read : Read) : Polled × FileBody :=
  if self.remaining = 0 then (.done, self)
  else
    let want := min self.remaining CHUNK
    match read with
    | .pending => (.pending, self)
    | .failed => (.failed, self)
    | .bytes n =>
        let filled := self.file.take (min (n + 1) want)
        -- the file shrank while being served
        if filled = [] then (.failed, { self with remaining := 0 })
        else (.data filled,
          { file := self.file.drop filled.length, remaining := self.remaining - filled.length })

inductive Content where
  | empty
  | text (text : String)
  /-- The list of a folder's entries. -/
  | listing (dir : List FileName)
  | file (body : FileBody)
  deriving DecidableEq

structure Response where
  status : ℕ
  headers : HeaderMap
  body : Content
  deriving DecidableEq

def ALLOW : String := "allow"
def LOCATION : String := "location"
def ETAG : String := "etag"
def LAST_MODIFIED : String := "last-modified"
def ACCEPT_RANGES : String := "accept-ranges"
def CACHE_CONTROL : String := "cache-control"
def X_CONTENT_TYPE_OPTIONS : String := "x-content-type-options"
def CONTENT_RANGE : String := "content-range"
def CONTENT_LENGTH : String := "content-length"
def RANGE : String := "range"
def IF_RANGE : String := "if-range"
def IF_NONE_MATCH : String := "if-none-match"
def IF_MODIFIED_SINCE : String := "if-modified-since"
def ACCEPT : String := "accept"
def CONTENT_TYPE : String := "content-type"

def plain (status : ℕ) (text : String) : Response where
  status := status
  headers := HeaderMap.insertText ⟨[]⟩ CONTENT_TYPE "text/plain; charset=utf-8"
  body := .text text

def notFound : Response := plain 404 "Not found"

def redirect (location : String) : Response where
  status := 301
  headers := HeaderMap.insertText ⟨[]⟩ LOCATION location
  body := .empty

/-! ## A file -/

/-- Validators for a file. -/
structure Validators where
  etag : String
  modified : Option ℤ

def Validators.of (len : ℕ) (modified : Option ℤ) : Validators where
  etag :=
    let nanos := (modified.getD 0).toNat
    let tag := (Sha256.bigEndian 8 len ++ Sha256.bigEndian 16 nanos).map UInt8.ofNat
    "\"" ++ String.ofList (((Sha256.bytes tag).take 8).flatMap Snapshots.hexByte) ++ "\""
  modified := modified

/-- A time without its fraction of a second. -/
def truncateSecs (time : ℤ) : ℤ :=
  if 0 ≤ time then time / 1000000000 * 1000000000 else time

/-- The client's copy is current. -/
def Validators.notModified (self : Validators) (foreign : Foreign) (headers : HeaderMap) : Bool :=
  match headers.getText? IF_NONE_MATCH with
  | some value => (split ',' value).any fun tag =>
      let tag := trim tag
      tag = "*" || trimStartText "W/" tag = self.etag
  | none =>
      match (headers.getText? IF_MODIFIED_SINCE).bind foreign.parseHttpDate, self.modified with
      | some since, some modified => truncateSecs modified ≤ since
      | _, _ => false

/-- `If-Range` allows a partial response. -/
def Validators.rangeAllowed (self : Validators) (foreign : Foreign) (headers : HeaderMap) : Bool :=
  match headers.getText? IF_RANGE with
  | none => true
  | some value =>
      if StartsWith "\"" value then value = self.etag
      else
        match foreign.parseHttpDate value, self.modified with
        | some date, some modified => truncateSecs modified = date
        | _, _ => false

/-- A parsed single byte range (inclusive). -/
inductive Range where
  | satisfiable (first last : ℕ)
  | unsatisfiable
  /-- Not a single byte range that is honoured. -/
  | ignore
  deriving DecidableEq

/-- A difference that isn't negative. -/
def checkedSub (a b : ℕ) : Option ℕ := if b ≤ a then some (a - b) else none

def parseU64 (s : String) : Option ℕ := (parseNumber s).filter (· < 2 ^ 64)

/-- The last `n` bytes. -/
def rangeAtEnd (n : Option ℕ) (len : ℕ) : Option Range :=
  match n with
  | some 0 => some .unsatisfiable
  | some n =>
      if len = 0 then some .unsatisfiable
      else (checkedSub len 1).map fun last => .satisfiable (len - n) last
  | none => some .ignore

def rangeBetween (first : ℕ) (last : Option ℕ) (len : ℕ) : Option Range :=
  match last with
  | some last =>
      if first ≥ len then some .unsatisfiable
      else if last < first then some .ignore
      else (checkedSub len 1).map fun top => .satisfiable first (min last top)
  | none => some .ignore

/-- The range of two texts; `none` if a difference is negative. -/
def rangeOf (start stop : String) (len : ℕ) : Option Range :=
  if start = "" then
    if stop = "" then some .ignore else rangeAtEnd (parseU64 stop) len
  else
    match parseU64 start with
    | some first => rangeBetween first (if stop = "" then some (len - 1) else parseU64 stop) len
    | none => some .ignore

def BYTES : String := "bytes="

def parseRange (value : String) (len : ℕ) : Option Range :=
  match stripStart BYTES (trim value) with
  | none => some .ignore
  | some spec =>
      if ',' ∈ spec.toList then some .ignore
      else
        match splitOnce '-' (trim spec) with
        | none => some .ignore
        | some (start, stop) => rangeOf (trim start) (trim stop) len

/-- The headers that every answer about a file has. -/
def fileHeaders (foreign : Foreign) (validators : Validators) : HeaderMap :=
  let headers := HeaderMap.insertText ⟨[]⟩ ETAG validators.etag
  let headers := match validators.modified with
    | some modified => headers.insertText LAST_MODIFIED (foreign.fmtHttpDate modified)
    | none => headers
  ((headers.insertText ACCEPT_RANGES "bytes").insertText CACHE_CONTROL "no-cache").insertText
    X_CONTENT_TYPE_OPTIONS "nosniff"

def contentTypeOf (mime : String × String) : String :=
  if mime.1 = "text" ∨ mime.2 = "application/javascript" ∨ mime.2 = "application/json" then
    mime.2 ++ "; charset=utf-8"
  else mime.2

/-- `count` bytes from `start` on, with their length. -/
def sendFile (bytes : List UInt8) (head : Bool) (out : HeaderMap) (status start count : ℕ) :
    Response where
  status := status
  headers := out.insertText CONTENT_LENGTH (toString count)
  body := if head then .empty else .file { file := bytes.drop start, remaining := count }

/-- The range that is honoured. -/
def Validators.range (self : Validators) (foreign : Foreign) (headers : HeaderMap) (len : ℕ) :
    Option Range :=
  match (headers.getText? RANGE).filter fun _ => self.rangeAllowed foreign headers with
  | some value => parseRange value len
  | none => some .ignore

/-- Answers with a file; `none` if a difference of its range is negative. -/
def serveFile (foreign : Foreign) (fs : FileSystem) (path : List FileName) (bytes : List UInt8)
    (headers : HeaderMap) (head : Bool) : Option Response :=
  let len := bytes.length
  let validators := Validators.of len (fs.modified path)
  let out := fileHeaders foreign validators
  if validators.notModified foreign headers then
    some { status := 304, headers := out, body := .empty }
  else
    let out := out.insertText CONTENT_TYPE (contentTypeOf (foreign.mime path))
    (validators.range foreign headers len).bind fun range =>
      match range with
      | .satisfiable first last =>
          (checkedSub last first).map fun n =>
            sendFile bytes head (out.insertText CONTENT_RANGE
              ("bytes " ++ toString first ++ "-" ++ toString last ++ "/" ++ toString len))
              206 first (n + 1)
      | .unsatisfiable =>
          some { status := 416, headers := out.insertText CONTENT_RANGE ("bytes */" ++ toString len)
                 body := .empty }
      | .ignore => some (sendFile bytes head out 200 0 len)

/-! ## The folder -/

structure Request where
  method : String
  uri : Uri
  headers : HeaderMap
  deriving DecidableEq

/-- A name as text. -/
def lossyName (foreign : Foreign) : FileName → String
  | .text name => name
  | .bytes name => foreign.lossy name

namespace Folder

/-- Whether a file or folder name may be served. -/
def nameAllowed (folder : Folder) (name : String) (isDir : Bool) : Bool :=
  (!decide (StartsWith "." name) || folder.config.hidden || name = ".well-known") &&
    folder.config.allow.allows name isDir

/-- The names of segments, when all may be served; those before `last` are folders'. -/
def kept (folder : Folder) (last : ℕ) : List (String × ℕ) → Option (List String)
  | [] => some []
  | (s, index) :: rest =>
      if s = "" ∨ s = "." then kept folder last rest
      else if s = ".." then none
      else if folder.nameAllowed s (index < last) = false then none
      -- Windows drive letters and alternate data streams
      else if ':' ∈ s.toList then none
      else (kept folder last rest).map (s :: ·)

/-- Safe path segments, or `none` when the path must not be served. -/
def segments (folder : Folder) (rawPath : String) : Option (List String) := do
  let decoded ← Uris.decode rawPath
  if '\x00' ∈ decoded.toList ∨ '\\' ∈ decoded.toList then none
  else
    let parts := split '/' decoded
    folder.kept (parts.length - 1) parts.zipIdx

/-- Where a path really leads, if it is inside the root and what it leads to is allowed too. -/
def resolve (folder : Folder) (foreign : Foreign) (fs : FileSystem) (path : List FileName) :
    Option (List FileName × Files.Node FileName) := do
  let canonical ← fs.root.canonicalize fs.limit [] (path.map .name)
  if folder.root <+: canonical then
    let inside := canonical.drop folder.root.length
    let node ← fs.root.get canonical
    if inside.zipIdx.all fun (name, index) =>
        folder.nameAllowed (lossyName foreign name) (index + 1 < inside.length || node.isDir) then
      some (canonical, node)
    else none
  else none

def isFile : Files.Node FileName → Bool
  | .file _ => true
  | _ => false

def bytesOf : Files.Node FileName → List UInt8
  | .file bytes => bytes
  | _ => []

def INDEX : FileName := .text "index.html"

/-- The index file of a folder. -/
def indexOf (folder : Folder) (foreign : Foreign) (fs : FileSystem) (dir : List FileName) :
    Option (List FileName × Files.Node FileName) :=
  (folder.resolve foreign fs (dir ++ [INDEX])).filter fun found => isFile found.2

def wantsHtml (path : String) (headers : HeaderMap) : Bool :=
  let last := (split '/' path).getLast?.getD ""
  ((headers.getText? ACCEPT).any fun accept => HasText "text/html" accept) || '.' ∉ last.toList

/-- What a request is for. -/
inductive Found where
  | nothing
  | redirect (location : String)
  | listing (dir : List FileName)
  | file (path : List FileName) (bytes : List UInt8)

/-- The file that was found, if any. -/
def Found.fileOr (otherwise : Found) : Option (List FileName × Files.Node FileName) → Found
  | some (path, node) => .file path (bytesOf node)
  | none => otherwise

/-- What a request is for whose path leads to something. -/
def findAt (folder : Folder) (foreign : Foreign) (fs : FileSystem) (uri : Uri)
    (canonical : List FileName) (node : Files.Node FileName) : Found :=
  if node.isDir then
    if ¬ EndsWith "/" uri.path then
      .redirect (match uri.query with
        | some query => uri.path ++ "/?" ++ query
        | none => uri.path ++ "/")
    else
      (if folder.config.listing then .listing canonical else .nothing : Found).fileOr
        (if folder.config.index then folder.indexOf foreign fs canonical else none)
  else .file canonical (bytesOf node)

def find (folder : Folder) (foreign : Foreign) (fs : FileSystem) (request : Request) : Found :=
  match folder.segments request.uri.path with
  | none => .nothing
  | some segments =>
      match folder.resolve foreign fs (folder.root ++ segments.map .text) with
      | some (canonical, node) => folder.findAt foreign fs request.uri canonical node
      | none =>
          Found.nothing.fileOr
            (if folder.config.spaFallback && wantsHtml request.uri.path request.headers then
              folder.indexOf foreign fs folder.root
            else none)

/-- The list of a folder's entries. -/
def listingOf (dir : List FileName) (head : Bool) : Response where
  status := 200
  headers := (HeaderMap.insertText ⟨[]⟩ CONTENT_TYPE "text/html; charset=utf-8").insertText
    CACHE_CONTROL "no-cache"
  body := if head then .empty else .listing dir

/-- Answers a request; `none` if a difference of a range is negative. -/
def serve (folder : Folder) (foreign : Foreign) (fs : FileSystem) (request : Request) :
    Option Response :=
  if request.method ≠ "GET" ∧ request.method ≠ "HEAD" then
    let response := plain 405 "Method not allowed"
    some { response with headers := response.headers.insertText ALLOW "GET, HEAD" }
  else
    let head := request.method = "HEAD"
    match folder.find foreign fs request with
    | .nothing => some notFound
    | .redirect location => some (redirect location)
    | .listing dir => some (listingOf dir head)
    | .file path bytes => serveFile foreign fs path bytes request.headers head

end Folder

end Upstream

end Teitunnel.Lens
