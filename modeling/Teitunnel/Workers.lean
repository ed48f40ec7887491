import Teitunnel.Access

/-!
# Workers

Workers in front of a route (the offline page, webhook inboxes) and Snapshots, a static copy of
a site served by a Worker: what intents and steps carry about them and what was observed.
-/

namespace Teitunnel

open Text

/-! ## Workers in front of a route -/

/-- Every front Worker's name starts with this. -/
def SCRIPT_PREFIX : String := "tt-"
/-- Longest offline page title. -/
def MAX_TITLE : ℕ := 120
/-- Longest offline page message. -/
def MAX_MESSAGE : ℕ := 1000
/-- Most webhooks one inbox holds. -/
def MAX_INBOX_ITEMS : ℕ := 1000
/-- Longest an inbox keeps a webhook, in days. -/
def MAX_RETENTION_DAYS : ℕ := 30
/-- The name of the account's D1 database. -/
def DATABASE_NAME : String := "teitunnel-data"

/-- Which Worker. -/
inductive FrontKind where
  | offline
  | inbox
  deriving DecidableEq, Repr

/-- Its name in the local index. -/
def FrontKind.asStr : FrontKind → String
  | offline => "offline"
  | inbox => "inbox"

/-- Why front Worker settings were refused. -/
inductive FrontError where
  | title
  | message
  | path
  | limits
  deriving DecidableEq, Repr

/-- `text` trimmed, if it is short enough and has no control characters (but line feeds when
`lines` allows them). -/
def plainText (text : String) (max : ℕ) (lines : Bool) : Option String :=
  let text := trim text
  if text.length ≤ max ∧ ¬ text.toList.any fun c => isControl c && !(lines && c == '\n') then
    some text
  else none

/-- The page shown while this computer is off. -/
structure OfflinePage where
  title : String
  message : String
  /-- Also show it when the tunnel is up but the local app doesn't answer. -/
  whenAppDown : Bool
  deriving DecidableEq

/-- Line ends as line feeds. -/
def lineFeeds : List Char → List Char
  | '\r' :: '\n' :: rest => '\n' :: lineFeeds rest
  | c :: rest => c :: lineFeeds rest
  | [] => []

/-- Trimmed and checked. -/
def OfflinePage.normalized (page : OfflinePage) : Except FrontError OfflinePage :=
  match (plainText page.title MAX_TITLE false).filter (· ≠ "") with
  | none => .error .title
  | some title =>
      match plainText (String.ofList (lineFeeds page.message.toList)) MAX_MESSAGE true with
      | none => .error .message
      | some message => .ok { title, message, whenAppDown := page.whenAppDown }

/-- How the webhook inbox verifies senders. -/
inductive InboxVerify where
  | github
  | stripe
  | standard
  deriving DecidableEq, Repr

/-- A webhook inbox's settings. -/
structure InboxSettings where
  maxItems : ℕ
  retentionDays : ℕ
  verify : Option InboxVerify
  deriving DecidableEq

/-- Checked. -/
def InboxSettings.normalized (s : InboxSettings) : Except FrontError InboxSettings :=
  if (1 ≤ s.maxItems ∧ s.maxItems ≤ MAX_INBOX_ITEMS) ∧
      (1 ≤ s.retentionDays ∧ s.retentionDays ≤ MAX_RETENTION_DAYS) then .ok s
  else .error .limits

/-- A webhook path: starts with `/`, no wildcard, query or control characters. -/
def cleanInboxPath (path : String) : Except FrontError String :=
  let path := trim path
  if ¬ StartsWith "/" path ∨ path.utf8ByteSize > 200 ∨
      path.toList.any (fun c => isControl c || "*?# \\".toList.contains c) then .error .path
  else .ok path

/-- What a front Worker is deployed with. -/
inductive FrontConfig where
  | offline (page : OfflinePage)
  | inbox (path : String) (settings : InboxSettings)
  deriving DecidableEq

namespace FrontConfig

/-- Which Worker. -/
def kind : FrontConfig → FrontKind
  | offline _ => .offline
  | inbox _ _ => .inbox

/-- The inbox path (`""` for the offline page). -/
def path : FrontConfig → String
  | offline _ => ""
  | inbox path _ => path

/-- Whether senders are verified. -/
def verifies : FrontConfig → Bool
  | offline _ => false
  | inbox _ settings => settings.verify.isSome

end FrontConfig

/-- Which D1 database a Worker binds to. -/
inductive DatabaseRef where
  | existing (id : String)
  /-- The one created earlier in the same plan. -/
  | created
  deriving DecidableEq

/-- The account's D1 database, as observed. -/
structure DatabaseState where
  id : Option String
  deriving DecidableEq

/-- A Worker name for a hostname (and inbox path): `tt-offline-<10 hex>`. -/
def scriptFor [External] (kind : FrontKind) (hostname path : String) : String :=
  let digest := (External.sha256 (toAsciiLowercase hostname ++ "\x00" ++ path)).hex
  SCRIPT_PREFIX ++ kind.asStr ++ "-" ++ String.ofList (digest.toList.take 10)

/-- The route pattern: `hostname/*` for the offline page, `hostname/path*` for an inbox. -/
def patternFor (hostname : String) (config : FrontConfig) : String :=
  match config with
  | .offline _ => toAsciiLowercase hostname ++ "/*"
  | .inbox path _ => toAsciiLowercase hostname ++ path ++ "*"

/-- One of the front Workers on a hostname, as observed. -/
structure ObservedFront where
  config : FrontConfig
  script : String
  /-- Whether the Worker exists. -/
  exists_ : Bool
  route : Option WorkerRoute
  deriving DecidableEq

/-- The Worker of `kind` at `path`. -/
def ObservedFront.is (f : ObservedFront) (kind : FrontKind) (path : String) : Bool :=
  f.config.kind == kind && f.config.path == path

/-- Worker routes on a hostname, as observed. -/
structure FrontState where
  hostname : String
  zoneId : String
  fronts : List ObservedFront
  /-- Routes on the hostname someone else made. -/
  foreign : List WorkerRoute
  deriving DecidableEq

namespace FrontState

/-- The Worker of `kind` (at `path` for an inbox). -/
def find (state : FrontState) (kind : FrontKind) (path : String) : Option ObservedFront :=
  state.fronts.find? fun f => f.is kind path

/-- A foreign route with exactly this pattern. -/
def foreignOn (state : FrontState) (pattern : String) : Option WorkerRoute :=
  state.foreign.find? fun r => SameText r.pattern pattern

end FrontState

/-! ## Snapshots of a site -/

/-- One file of a version. -/
structure SiteFile where
  path : String
  hash : String
  size : ℕ
  contentType : String
  deriving DecidableEq

/-- The files of a version and where to read them. -/
structure SiteContent where
  root : Option String
  files : List SiteFile
  headers : Option String
  redirects : Option String
  deriving DecidableEq

namespace SiteContent

/-- Total size in bytes. -/
def bytes (content : SiteContent) : ℕ :=
  (content.files.map SiteFile.size).sum

/-- The hash `previous` has for `path`: its last file there. -/
def hashIn (previous : List SiteFile) (path : String) : Option String :=
  (previous.reverse.find? fun f => f.path == path).map SiteFile.hash

/-- Files (count, bytes) that aren't in `previous` with the same content. -/
def changesFrom (content : SiteContent) (previous : List SiteFile) : ℕ × ℕ :=
  let changed := content.files.filter fun f => hashIn previous f.path ≠ some f.hash
  (changed.length, (changed.map SiteFile.size).sum)

end SiteContent

/-- Where a Snapshot answers. -/
inductive SiteAddress where
  | domain (hostname : Hostname)
  | workersDev
  deriving DecidableEq

/-- The hostname, for a custom one. -/
def SiteAddress.hostname : SiteAddress → Option Hostname
  | domain hostname => some hostname
  | workersDev => none

/-- A Snapshot as the engine knows it. -/
structure SiteSpec where
  id : String
  name : String
  /-- The Worker's name. -/
  script : String
  address : SiteAddress
  /-- Require a login (custom hostnames only). -/
  access : Option AccessRule
  deriving DecidableEq

/-- A password on a version. -/
inductive Password where
  | off
  | keep
  | set (hash : String)
  deriving DecidableEq

/-- Comments on a Snapshot. -/
structure SiteComments where
  database : DatabaseRef
  identity : Bool
  deriving DecidableEq

/-- How a version answers. -/
structure SiteSettings where
  spa : Bool
  password : Password
  overlay : Option String
  comments : Option SiteComments
  deriving DecidableEq

/-- A Snapshot's Worker as observed. -/
structure SiteState where
  script : String
  exists_ : Bool
  activeVersion : Option String
  workersDev : Bool
  subdomain : Option String
  domains : List WorkerDomain
  /-- Another Worker already serving the requested hostname. -/
  hostnameTakenBy : Option String
  deriving DecidableEq

end Teitunnel
