import Teitunnel.Lib.Table
import Teitunnel.Lib.Text
import Teitunnel.Mcp.Store

/-!
# The authorization server of shared MCP servers

Every request is a task that goes from one database call or lock section to the next; the steps
of all tasks interleave.  Times are milliseconds of one clock.
-/

namespace Teitunnel.Mcp

open Text

/-- How long an access token lasts. -/
def ACCESS_TTL : ℕ := 3600 * 1000

/-- How long a refresh token lasts unused. -/
def REFRESH_TTL : ℕ := 30 * 24 * 3600 * 1000

/-- How long an answered request is kept. -/
def PENDING_TTL : ℕ := 300 * 1000

/-- What the parts of a URI are. -/
structure Uri where
  scheme : Option String
  host : Option String
  port : Option ℕ
  path : String
  query : Option String

/-- Reading URIs, and the S256 challenge of a code verifier. -/
structure Codec where
  uri : String → Option Uri
  s256 : String → String

/-- One shared MCP server. -/
structure Server where
  host : String
  path : String
  deriving DecidableEq

def issuer (host : String) : String := "https://" ++ host

/-- The audience that `resource` names, when it names the server of `host` and `path`. -/
def audience (c : Codec) (host path resource : String) : Option String := do
  let uri ← c.uri resource
  let isHttps := uri.scheme.any fun scheme => toAsciiLowercase scheme = "https"
  let isHost := uri.host.any fun h => toAsciiLowercase h = toAsciiLowercase host
  guard (isHttps ∧ isHost ∧ uri.port.all (· = 443) ∧ uri.query.isNone ∧ !resource.contains '#')
  let asked := trimEnd (· == '/') uri.path
  let server := trimEnd (· == '/') path
  let covers := asked.isEmpty || asked = server ||
    (stripStart asked server).any fun rest => rest.startsWith "/"
  guard covers
  return issuer (toAsciiLowercase host) ++ asked

def pkceOk (c : Codec) (verifier challenge : String) : Bool :=
  let isVerifier := 43 ≤ verifier.utf8ByteSize ∧ verifier.utf8ByteSize ≤ 128 ∧
    verifier.toList.all fun a => isAsciiAlphanumeric a || "-._~".contains a
  isVerifier && c.s256 verifier = challenge

structure OAuthError where
  code : String
  description : String
  deriving DecidableEq

/-- An authorization code. -/
structure Code where
  host : String
  clientId : String
  redirectUri : String
  challenge : String
  /-- The audience asked for at authorization, if any. -/
  resource : Option String
  expires : Timestamp
  deriving DecidableEq

/-- A valid access token. -/
structure Access where
  host : String
  grant : String
  resource : Option String
  expiresAt : Timestamp
  deriving DecidableEq

/-- The form of an `authorization_code` request. -/
structure CodeForm where
  code : String
  clientId : Option String
  redirectUri : Option String
  codeVerifier : Option String
  resource : Option String

/-- The form of a `refresh_token` request. -/
structure RefreshForm where
  refreshToken : String
  clientId : Option String
  resource : Option String
  deriving DecidableEq

/-- New tokens, and the entry of the access token. -/
structure Issued where
  hash : String
  access : Access
  refresh : String
  refreshExpiresAt : Timestamp
  deriving DecidableEq

/-- How far a task is. -/
inductive Stage where
  /-- Its code is taken and fits. -/
  | exchanging (server : Server) (code clientId : String) (resource : Option String)
  /-- Its code isn't there. -/
  | replaying (code : String)
  | inserting (code clientId : String) (grantEnds : Timestamp) (issued : Issued)
  /-- The row couldn't be inserted. -/
  | dropping (grant : String) (error : OAuthError)
  | remembering (code : String) (issued : Issued)
  | finding (server : Server) (form : RefreshForm)
  | refreshing (server : Server) (presented : String) (grant : Grant)
  | rotating (presented : String) (issued : Issued)
  | keeping (issued : Issued)
  | revoking (server : Server) (token : String)
  /-- Ending a connection, before what is answered. -/
  | ending (grant : String) (answer : Option OAuthError)
  | deleting (grant : String) (answer : Option OAuthError)
  /-- Disconnecting, the row deleted. -/
  | forgetting (grant : String)
  | reading (since : Timestamp)
  | replacing (since : Timestamp) (grants : List Grant)
  deriving DecidableEq

/-- What only the task knows so far. -/
def Stage.secrets : Stage → List String
  | .inserting _ _ _ issued => [issued.hash, issued.refresh, issued.access.grant]
  | .remembering _ issued | .rotating _ issued | .keeping issued => [issued.hash, issued.refresh]
  | _ => []

/-- What happened, for the properties. -/
inductive Event where
  | token (hash grant : String)
  | inserted (code grant : String)
  | remembered (code grant : String) (time : Timestamp)
  /-- A refresh token was exchanged. -/
  | rotated (request : ℕ) (refresh grant : String)
  | returned (hash : String) (access : Access)
  /-- An ending of a connection took its first effect. -/
  | begun (grant : String)
  /-- An ending of a connection returned. -/
  | ended (grant : String)
  | presentedCode (request : ℕ) (code : String) (time : Timestamp)
  | presentedRefresh (request : ℕ) (refresh : String)
  | presentedRevoke (request : ℕ) (token : String)
  | answered (request : ℕ) (error : Option OAuthError)
  deriving DecidableEq

/-- Random values. -/
structure Fresh where
  access : String
  refresh : String
  grant : String

/-- The server: its database, its memory, and what is under way. -/
structure Auth where
  now : Timestamp
  maxGrant : ℕ
  rows : List Row
  codes : Table String Code
  /-- Exchanged codes, when, and the connection they made. -/
  usedCodes : Table String (Timestamp × String)
  /-- Valid access tokens. -/
  access : Table String Access
  tasks : Table ℕ Stage
  /-- Tasks so far. -/
  started : ℕ
  /-- Values that were drawn or presented: a random value is none of them. -/
  seen : List String
  log : List Event

/-- The entry of a connection's access token, as long as it lasts. -/
def Grant.entry (grant : Grant) : Option (String × Access) := do
  let hash ← grant.accessHash
  let expires ← grant.accessExpiresAt
  let expiresAt := min expires grant.expiresAt
  return (hash, { host := grant.host, grant := grant.id, resource := grant.resource, expiresAt })

/-- The access tokens of connections that are valid after `since`. -/
def tokenIndex (since : Timestamp) (grants : List Grant) : Table String Access :=
  .ofList ((grants.filterMap Grant.entry).filter fun entry => since < entry.2.expiresAt)

namespace Auth

/-! ## Bookkeeping -/

def record (s : Auth) (event : Event) : Auth := { s with log := s.log ++ [event] }

/-- A new task. -/
def start (s : Auth) (stage : Stage) : Auth :=
  { s with tasks := s.tasks.insert s.started stage, started := s.started + 1 }

/-- A task that is answered at once. -/
def refuse (s : Auth) (error : Option OAuthError) : Auth :=
  { s with started := s.started + 1, log := s.log ++ [.answered s.started error] }

def become (s : Auth) (i : ℕ) (stage : Stage) : Auth := { s with tasks := s.tasks.insert i stage }

def answer (s : Auth) (i : ℕ) (error : Option OAuthError) : Auth :=
  { s with tasks := s.tasks.erase i, log := s.log ++ [.answered i error] }

def see (s : Auth) (values : List String) : Auth := { s with seen := values ++ s.seen }

/-- Whether only a task under way knows a value. -/
def isSecret (s : Auth) (value : String) : Bool :=
  s.tasks.entries.any fun entry => entry.2.secrets.contains value

/-! ## What the tasks do -/

/-- Whether an access token works at a server. -/
def valid (c : Codec) (s : Auth) (server : Server) (token : String) : Bool :=
  (s.access.find token).any fun a =>
    a.host = server.host && s.now < a.expiresAt &&
      a.resource.all fun granted => (audience c server.host server.path granted).isSome

/-- Drops a connection's tokens from memory. -/
def forget (s : Auth) (grant : String) : Auth :=
  { s with access := s.access.retain fun _ a => a.grant ≠ grant }

/-- New tokens for a connection, which ends at `grantEnds`. -/
def issue (s : Auth) (fresh : Fresh) (grant host : String) (resource : Option String)
    (grantEnds : Timestamp) : Issued where
  hash := fresh.access
  access := { host, grant, resource, expiresAt := min (s.now + ACCESS_TTL) grantEnds }
  refresh := fresh.refresh
  refreshExpiresAt := min (s.now + REFRESH_TTL) grantEnds

/-- Their access token works from now on. -/
def accept (s : Auth) (issued : Issued) : Auth :=
  { s with
    access := s.access.insert issued.hash issued.access
    seen := issued.hash :: issued.refresh :: s.seen
    log := s.log ++ [.token issued.hash issued.access.grant,
      .token issued.refresh issued.access.grant] }

/-- The audience a token request names. -/
def requestedAudience (c : Codec) (server : Server) (resource : Option String) :
    Except OAuthError (Option String) :=
  match resource with
  | none => .ok none
  | some asked =>
      match audience c server.host server.path asked with
      | some named => .ok (some named)
      | none => .error ⟨"invalid_target", "This server can only issue tokens for itself."⟩

/-- Whether a code fits a request, and what its tokens are for. -/
def checkCode (c : Codec) (now : Timestamp) (server : Server) (form : CodeForm) (code : Code) :
    Except OAuthError (Option String) := do
  if code.host ≠ server.host ∨ code.expires ≤ now ∨ code.clientId ≠ form.clientId.getD "" ∨
      form.redirectUri ≠ some code.redirectUri then
    throw ⟨"invalid_grant", "The code doesn't match this request."⟩
  if !pkceOk c (form.codeVerifier.getD "") code.challenge then
    throw ⟨"invalid_grant", "The code verifier is wrong."⟩
  match ← requestedAudience c server form.resource, code.resource with
  | some asked, some authorized =>
      if asked ≠ authorized then
        throw ⟨"invalid_target", "The resource differs from the one authorized."⟩
      return some authorized
  | asked, authorized => return authorized.or asked

def exchangeCode (c : Codec) (s : Auth) (server : Server) (form : CodeForm) : Auth :=
  match s.codes.find form.code with
  | none => s.start (.replaying form.code)
  | some code =>
      let s := { s with
        codes := s.codes.erase form.code
        log := s.log ++ [Event.presentedCode s.started form.code s.now] }
      match checkCode c s.now server form code with
      | .error error => s.refuse (some error)
      | .ok resource => s.start (.exchanging server form.code (form.clientId.getD "") resource)

def replayError : OAuthError := ⟨"invalid_grant", "The code is invalid, expired or used."⟩

def reuseError : OAuthError :=
  ⟨"invalid_grant",
    "This refresh token was already used; the connection was ended. Connect again."⟩

/-- What a refresh does with the connection it found. -/
def checkRefresh (c : Codec) (s : Auth) (i : ℕ) (server : Server) (form : RefreshForm)
    (grant : Grant) : Auth :=
  if grant.expiresAt ≤ s.now then
    s.become i (.ending grant.id (some
      ⟨"invalid_grant", "This connection reached the end of its lifetime. Connect again."⟩))
  else if grant.clientId ≠ form.clientId.getD "" ∨ grant.refreshExpiresAt ≤ s.now then
    s.answer i (some ⟨"invalid_grant", "The refresh token is invalid or expired."⟩)
  else
    match requestedAudience c server form.resource with
    | .error error => s.answer i (some error)
    | .ok asked =>
        if asked.any fun asked => grant.resource.any fun granted => asked ≠ granted then
          s.answer i (some ⟨"invalid_target", "The resource differs from the one authorized."⟩)
        else s.become i (.refreshing server form.refreshToken grant)

/-- Revoking a token, first by the access tokens in memory. -/
def revoke (s : Auth) (server : Server) (token : String) : Auth :=
  let s := s.record (.presentedRevoke s.started token)
  match (s.access.find token).filter fun a => a.host = server.host with
  | some a => s.start (.ending a.grant none)
  | none => s.start (.revoking server token)

/-- The row of a connection that tokens were issued for. -/
def grantOf (clientId : String) (grantEnds : Timestamp) (issued : Issued) : Grant where
  id := issued.access.grant
  host := issued.access.host
  clientId := clientId
  accessHash := some issued.hash
  accessExpiresAt := some issued.access.expiresAt
  refreshHash := issued.refresh
  refreshExpiresAt := issued.refreshExpiresAt
  resource := issued.access.resource
  expiresAt := grantEnds

/-! ## Steps -/

/-- The next database call or lock section of a task, when it goes well. -/
def proceed (c : Codec) (s : Auth) (i : ℕ) (fresh : Fresh) : Stage → Option Auth
  | .exchanging server code clientId resource =>
      let values := [fresh.access, fresh.refresh, fresh.grant]
      if values.Nodup ∧ ∀ value ∈ values, value ∉ s.seen then
        let grantEnds := s.now + s.maxGrant
        let issued := s.issue fresh fresh.grant server.host resource grantEnds
        some (((s.accept issued).see [fresh.grant]).become i
          (.inserting code clientId grantEnds issued))
      else none
  | .replaying code =>
      let s := s.record (.presentedCode i code s.now)
      match s.usedCodes.find code with
      | some (_, grant) =>
          some ({ s with usedCodes := s.usedCodes.erase code }.become i
            (.ending grant (some replayError)))
      | none => some (s.answer i (some replayError))
  | .inserting code clientId grantEnds issued =>
      (insertGrant s.rows (grantOf clientId grantEnds issued)).map fun rows =>
        ({ s with rows }.record (.inserted code issued.access.grant)).become i
          (.remembering code issued)
  | .dropping grant error => some (((s.forget grant).record (.begun grant)).answer i (some error))
  | .remembering code issued =>
      let s := { s with usedCodes := s.usedCodes.insert code (s.now, issued.access.grant) }
      some (((s.record (.remembered code issued.access.grant s.now)).record
        (.returned issued.hash issued.access)).answer i none)
  | .finding server form =>
      let s := s.record (.presentedRefresh i form.refreshToken)
      match findRefresh s.rows server.host form.refreshToken with
      | .current grant => some (s.checkRefresh c i server form grant)
      | .reused grant => some (s.become i (.ending grant (some reuseError)))
      | .unknown =>
          some (s.answer i (some ⟨"invalid_grant", "The refresh token is invalid or expired."⟩))
  | .refreshing server presented grant =>
      let values := [fresh.access, fresh.refresh]
      if values.Nodup ∧ ∀ value ∈ values, value ∉ s.seen then
        let issued := s.issue fresh grant.id server.host grant.resource grant.expiresAt
        some ((s.accept issued).become i (.rotating presented issued))
      else none
  | .rotating presented issued =>
      let grant := issued.access.grant
      let rotated := rotate s.rows grant presented
        (issued.hash, issued.access.expiresAt) (issued.refresh, issued.refreshExpiresAt)
      if rotated.2 then
        some (({ s with rows := rotated.1 }.record (.rotated i presented grant)).become i (.keeping issued))
      else some (s.become i (.ending grant (some reuseError)))
  | .keeping issued =>
      -- only the newest access token of a connection stays valid
      let access := s.access.retain fun hash a =>
        a.grant ≠ issued.access.grant || hash = issued.hash
      some (({ s with access }.record (.returned issued.hash issued.access)).answer i none)
  | .revoking server token =>
      match findRefresh s.rows server.host token with
      | .current grant => some (s.become i (.ending grant.id none))
      | _ => some (s.answer i none)
  | .ending grant answer =>
      some (((s.forget grant).record (.begun grant)).become i (.deleting grant answer))
  | .deleting grant answer =>
      some (({ s with rows := deleteGrant s.rows grant }.record (.ended grant)).answer i answer)
  | .forgetting grant => some (((s.forget grant).record (.ended grant)).answer i none)
  | .reading since => some (s.become i (.replacing since (grants s.rows)))
  | .replacing since grants =>
      some ({ s with
        access := tokenIndex since grants
        codes := s.codes.retain fun _ code => s.now < code.expires
        usedCodes := s.usedCodes.retain fun _ (time, _) => s.now - time < PENDING_TTL * 2 }.answer
          i none)

/-- What a task does when its client isn't found or authenticated, or its database call fails. -/
def fail (s : Auth) (i : ℕ) (error : OAuthError) : Stage → Option Auth
  | .exchanging .. | .finding .. | .refreshing .. | .rotating .. => some (s.answer i (some error))
  | .inserting _ _ _ issued => some (s.become i (.dropping issued.access.grant error))
  | .revoking .. | .reading .. => some (s.answer i none)
  | .deleting grant answer => some ((s.record (.ended grant)).answer i answer)
  | _ => none

inductive Step where
  | pass (ms : ℕ)
  /-- A request is approved, with a new code. -/
  | approve (hash : String) (code : Code)
  | exchangeCode (server : Server) (form : CodeForm)
  | refresh (server : Server) (form : RefreshForm)
  | revoke (server : Server) (token : String)
  | disconnect (id : String)
  /-- A connection is ended by another process. -/
  | disconnectElsewhere (id : String)
  /-- The app announces that a connection ended. -/
  | connectionEnded (id : String)
  | sync
  | proceed (i : ℕ) (fresh : Fresh)
  | fail (i : ℕ) (error : OAuthError)

/-- Nobody presents what only a task knows. -/
def step (c : Codec) (s : Auth) : Step → Option Auth
  | .pass ms => some { s with now := s.now + ms }
  | .approve hash code =>
      if hash ∈ s.seen then none
      else some ({ s with codes := s.codes.insert hash code }.see [hash])
  | .exchangeCode server form =>
      if s.isSecret form.code then none else some ((s.see [form.code]).exchangeCode c server form)
  | .refresh server form =>
      if s.isSecret form.refreshToken then none
      else some ((s.see [form.refreshToken]).start (.finding server form))
  | .revoke server token =>
      if s.isSecret token then none else some ((s.see [token]).revoke server token)
  | .disconnect id =>
      if s.isSecret id then none
      else some (({ s with rows := deleteGrant s.rows id }.see [id]).record (.begun id) |>.start
        (.forgetting id))
  | .disconnectElsewhere id =>
      if s.isSecret id then none
      else some (({ s with rows := deleteGrant s.rows id }.see [id]).record (.begun id))
  | .connectionEnded id =>
      if s.isSecret id then none
      else
        let s := ((s.see [id]).forget id).record (.begun id)
        some (if s.rows.any fun row => row.id = id then s else s.record (.ended id))
  | .sync => some ({ s with rows := sweep s.rows s.now }.start (.reading s.now))
  | .proceed i fresh => (s.tasks.find i).bind (s.proceed c i fresh)
  | .fail i error => (s.tasks.find i).bind (s.fail i error)

end Auth

/-! ## Opening -/

/-- Connections as a database has them: ids and tokens are those of one row each. -/
structure Database where
  rows : List Row
  distinct : rows.Pairwise fun row other =>
    row.id ≠ other.id ∧ row.tokens.Disjoint other.tokens

/-- The server over a database, before its first request. -/
def Auth.open (db : Database) (now : Timestamp) (maxGrant : ℕ) : Auth where
  now := now
  maxGrant := maxGrant
  rows := sweep db.rows now
  codes := .empty
  usedCodes := .empty
  access := tokenIndex now (grants (sweep db.rows now))
  tasks := .empty
  started := 0
  seen := db.rows.flatMap fun row => row.id :: row.tokens
  log := db.rows.flatMap fun row => row.tokens.map fun token => .token token row.id

end Teitunnel.Mcp
