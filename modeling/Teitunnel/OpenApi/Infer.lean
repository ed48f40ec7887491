import Teitunnel.Lens.Capture
import Teitunnel.Lens.Inject
import Teitunnel.OpenApi.Paths

/-!
# Descriptions from traffic

An OpenAPI description inferred from captured requests: paths with parameters, methods, query and
header parameters, bodies as schemas merged across samples, status codes and the authentication
seen.  A document is kept as its parts, not as the text of its JSON.
-/

namespace Teitunnel.OpenApi

open Text Lens

/-- Readers of JSON and of numbers, the reasons of status codes, and bytes that may be no text. -/
class Foreign where
  readJson : List UInt8 → Option Json
  /-- A text is a number with a finite value. -/
  isFinite : String → Bool
  reason : ℕ → Option String
  /-- Bytes as text, with replacement characters. -/
  lossy : List UInt8 → String

/-! ## Scalars -/

/-- A whole number of 64 bits, with or without a sign. -/
def isI64 (value : String) : Bool :=
  let (negative, digits) := match value.toList with
    | '-' :: rest => (true, rest)
    | '+' :: rest => (false, rest)
    | rest => (false, rest)
  digits ≠ [] && digits.all isAsciiDigit &&
    Nat.ofDigitChars 10 digits 0 ≤ if negative then 2 ^ 63 else 2 ^ 63 - 1

/-- The schema of a parameter being learned from its values. -/
structure Scalar where
  kinds : SortedSet Kind := .empty
  formats : SortedSet (Option String) := .empty

namespace Scalar

variable [Foreign]

/-- The kind of a parameter's value. -/
def kindOf (value : String) : Kind :=
  if value ≠ "" && isI64 value then .integer
  else if Foreign.isFinite value && value ≠ "" then .number
  else if value = "true" || value = "false" then .boolean
  else .string

/-- Learns from one more value. -/
def add (scalar : Scalar) (value : String) : Scalar :=
  let kind := kindOf value
  { kinds := scalar.kinds.insert kind
    formats := if kind = .string then scalar.formats.insert (stringFormat value) else scalar.formats }

omit [Foreign] in
/-- One type when all values agree, else a string. -/
def kind (scalar : Scalar) : Kind :=
  match scalar.kinds.toList with
  | [one] => one
  | [.integer, .number] => .number
  | _ => .string

omit [Foreign] in
/-- The format that all strings have. -/
def format (scalar : Scalar) : Option String :=
  match scalar.kind, scalar.formats.toList with
  | .string, [some format] => some format
  | _, _ => none

omit [Foreign] in
def schema (scalar : Scalar) : Json :=
  .obj (("type", .str scalar.kind.name) ::
    (scalar.format.map fun format => ("format", .str format)).toList)

end Scalar

/-! ## What an exchange says -/

/-- Request headers that say nothing about the API. -/
def COMMON_HEADERS : List String :=
  ["accept", "accept-encoding", "accept-language", "authorization", "cache-control", "cdn-loop",
    "connection", "content-length", "content-type", "cookie", "dnt", "host", "origin", "pragma",
    "priority", "referer", "te", "traceparent", "tracestate", "true-client-ip", "upgrade",
    "upgrade-insecure-requests", "user-agent", "via", "x-real-ip", "x-requested-with"]

def isCommonHeader (name : String) : Bool :=
  COMMON_HEADERS.contains name || StartsWith "cf-" name || StartsWith "x-forwarded-" name ||
    StartsWith "sec-" name || StartsWith "if-" name || StartsWith "x-teitunnel" name

/-- What to describe. -/
structure Options where
  /-- Only requests to this host. -/
  host : Option String := none
  title : Option String := none

def textOf (headers : Lens.HeaderMap) (name : String) : Option String :=
  (headers.get? name).bind HeaderValue.toStr

def mediaType (headers : Lens.HeaderMap) : Option String :=
  ((textOf headers "content-type").map fun value =>
    toAsciiLowercase (trim ((split ';' value).headD ""))).filter (· ≠ "")

def isJson (media : String) : Bool := media = "application/json" || EndsWith "+json" media

/-- A page or an asset, not an answer of an API. -/
def isAsset (media : Option String) (path : String) : Bool :=
  (media.any fun media => media = "text/html" || media = "text/css" || HasText "javascript" media ||
    StartsWith "image/" media || StartsWith "font/" media || StartsWith "video/" media ||
    StartsWith "audio/" media) ||
  let last := toAsciiLowercase ((split '/' path).getLastD "")
  [".js", ".mjs", ".css", ".map", ".png", ".jpg", ".jpeg", ".gif", ".svg", ".ico", ".webp",
    ".avif", ".woff", ".woff2", ".ttf", ".html", ".htm"].any fun ext => EndsWith ext last

/-- A body's JSON value, or form fields, when it is complete and can be read. -/
inductive BodySample where
  | json (value : Json)
  | form (names : List String)
  | other

def FORM : String := "application/x-www-form-urlencoded"

section Sampling

variable [Foreign] [Decompressors]

def sample (headers : Lens.HeaderMap) (body : BodyRecord) (media : Option String) : Option BodySample :=
  if body.size = 0 then none
  else media.bind fun media =>
    if body.truncated || !body.complete then some .other
    else match decodeBody headers body.data with
      | .error _ => none
      | .ok decoded =>
          if isJson media then some ((Foreign.readJson decoded).elim .other .json)
          else if media = FORM then
            some (.form (((split '&' (Foreign.lossy decoded)).map fun pair =>
              (split '=' pair).headD "").filter (· ≠ "")))
          else some .other

end Sampling

/-- The first value of each name. -/
def firsts (seen : List String) : List (String × String) → List (String × String)
  | [] => []
  | (name, value) :: rest =>
      if seen.contains name then firsts seen rest else (name, value) :: firsts (name :: seen) rest

/-- The query parameters of a request. -/
def queryOf (request : RequestRecord) : List (String × String) :=
  firsts [] (((split '&' (request.uri.query.getD "")).map fun pair =>
    (splitOnce '=' pair).getD (pair, "")).filter fun pair => pair.1 ≠ "")

/-- The headers of a request that may be parameters. -/
def headersOf (request : RequestRecord) : List (String × String) :=
  firsts [] ((request.headers.entries.map fun (name, value) =>
    (toAsciiLowercase name, value.toStr.getD "")).filter fun header => !isCommonHeader header.1)

/-- The scheme of a request's credentials. -/
def authScheme (request : RequestRecord) : String :=
  match textOf request.headers "authorization" with
  | some auth => String.ofList ((auth.toList.dropWhile isWhitespace).takeWhile (!isWhitespace ·))
  | none => ""

/-! ## Bodies -/

structure ContentSchema where
  json : Learned := {}
  formFields : SortedSet String := .empty
  samples : ℕ := 0

def addNames (fields : SortedSet String) (names : List String) : SortedSet String :=
  names.foldl (fun fields name => fields.insert name) fields

def ContentSchema.add (entry : ContentSchema) (sample : BodySample) : ContentSchema :=
  let entry := { entry with samples := entry.samples + 1 }
  match sample with
  | .json value => { entry with json := entry.json.add value }
  | .form names => { entry with formFields := addNames entry.formFields names }
  | .other => entry

def ContentSchema.schema (media : String) (body : ContentSchema) : Json :=
  if !body.json.isEmpty then body.json.schema
  else if !body.formFields.isEmpty then
    .obj [("type", .str "object"), ("properties", .obj (body.formFields.toList.map fun name =>
      (name, .obj [("type", .str "string")])))]
  else if StartsWith "text/" media then .obj [("type", .str "string")]
  else if isJson media then .obj []
  else .obj [("type", .str "string"), ("contentMediaType", .str media)]

/-- A body for each media type. -/
abbrev Content := List (String × ContentSchema)

def Content.add (content : Content) (media : String) (sample : BodySample) : Content :=
  SortedMap.entry media {} (·.add sample) content

def Content.render (content : Content) : List (String × Json) :=
  content.map fun (media, body) => (media, body.schema media)

/-! ## Operations -/

structure Operation where
  count : ℕ := 0
  query : List (String × ℕ × Scalar) := []
  headers : List (String × ℕ × Scalar) := []
  pathParams : List (ℕ × Scalar) := []
  request : Content := []
  requestCount : ℕ := 0
  responses : List (ℕ × Content × Bool) := []
  bearer : Bool := false
  basic : Bool := false

/-- One more request with a parameter. -/
def addParam [Foreign] (params : List (String × ℕ × Scalar)) (param : String × String) :
    List (String × ℕ × Scalar) :=
  SortedMap.entry param.1 (0, {}) (fun entry => (entry.1 + 1, entry.2.add param.2)) params

/-- The values at the parameters of a template. -/
def pathValues (template : Template) (path : List String) : List (ℕ × String) :=
  (List.range template.length).filterMap fun index =>
    if template[index]? = some .param then path[index]?.map fun value => (index, value) else none

def addPathParam [Foreign] (params : List (ℕ × Scalar)) (param : ℕ × String) : List (ℕ × Scalar) :=
  SortedMap.entry param.1 {} (·.add param.2) params

def OCTET_STREAM : String := "application/octet-stream"

section Describing

variable [Foreign] [Decompressors]

/-- The sample of an answer's body, under its media type. -/
def addResponse (response : ResponseRecord) (entry : Content × Bool) : Content × Bool :=
  let media := mediaType response.headers
  match sample response.headers response.body media with
  | some body => (entry.1.add (media.getD OCTET_STREAM) body, true)
  | none => entry

def Operation.add (operation : Operation) (exchange : Exchange) (path : List String)
    (template : Template) : Operation :=
  let request := exchange.request
  let scheme := toAsciiLowercase (authScheme request)
  let media := mediaType request.headers
  let body := sample request.headers request.body media
  { count := operation.count + 1
    pathParams := (pathValues template path).foldl addPathParam operation.pathParams
    query := (queryOf request).foldl addParam operation.query
    headers := (headersOf request).foldl addParam operation.headers
    bearer := operation.bearer || scheme = "bearer"
    basic := operation.basic || scheme = "basic"
    request := body.elim operation.request (operation.request.add (media.getD OCTET_STREAM))
    requestCount := operation.requestCount + if body.isSome then 1 else 0
    responses := exchange.response.elim operation.responses fun response =>
      SortedMap.entry response.status ([], false) (addResponse response) operation.responses }

end Describing

/-! ## The document -/

inductive Location where
  | path
  | query
  | header
  deriving DecidableEq, Repr

structure Parameter where
  name : String
  location : Location
  required : Bool
  schema : Json

structure ResponseView where
  description : String
  content : Option (List (String × Json))

/-- An operation as the document has it. -/
structure OperationView where
  summary : String
  parameters : List Parameter
  /-- The bodies of requests, and whether every request had one. -/
  requestBody : Option (List (String × Json) × Bool)
  /-- By status; none stands for `default`. -/
  responses : List (Option ℕ × ResponseView)
  security : List String
  observedRequests : ℕ

/-- The parameters of a path, each with its name. -/
def pathParameters (operation : Operation) (template : Template) : List Parameter :=
  (((List.range template.length).filter fun index => template[index]? = some .param).zip
    (paramNames template)).map fun (index, name) =>
      { name, location := .path, required := true
        schema := (operation.pathParams.lookup index).elim (.obj [("type", .str "string")])
          Scalar.schema }

def listParameters (operation : Operation) (location : Location)
    (params : List (String × ℕ × Scalar)) : List Parameter :=
  params.map fun (name, count, scalar) =>
    { name, location, required := count = operation.count, schema := scalar.schema }

def reasonText [Foreign] (status : ℕ) : String :=
  (Foreign.reason status).getD ("Status " ++ toString status)

def Operation.render [Foreign] (operation : Operation) (template : Template) (method : String) :
    OperationView where
  summary := String.ofList (method.toList.map Char.toUpper) ++ " " ++ OpenApi.render template
  parameters := pathParameters operation template ++
    listParameters operation .query operation.query ++
    listParameters operation .header operation.headers
  requestBody :=
    if 0 < operation.requestCount then
      some (operation.request.render, operation.requestCount = operation.count)
    else none
  responses :=
    if operation.responses.isEmpty then [(none, ⟨"Not observed", none⟩)]
    else operation.responses.map fun (status, content, hasBody) =>
      (some status, ⟨reasonText status, if hasBody then some content.render else none⟩)
  security := (if operation.bearer then ["bearerAuth"] else []) ++
    if operation.basic then ["basicAuth"] else []
  observedRequests := operation.count

/-- An exchange describes the API. -/
def usable (host : Option String) (exchange : Exchange) : Bool :=
  let request := exchange.request
  exchange.kind = .http && exchange.responder = .upstream &&
    !(["OPTIONS", "HEAD", "CONNECT", "TRACE"].contains request.method) &&
    exchange.replayOf.isNone &&
    (host.all fun h => toAsciiLowercase request.host = toAsciiLowercase h) &&
    match exchange.response with
    | some response => !isAsset (mediaType response.headers) request.uri.path
    | none => false

structure Document where
  title : String
  /-- Requests that it was inferred from. -/
  observed : ℕ
  servers : List String
  paths : List (String × List (String × OperationView))
  bearer : Bool
  basic : Bool

structure Summary where
  requests : ℕ
  skipped : ℕ
  paths : ℕ
  operations : ℕ
  hosts : List String
  deriving DecidableEq

/-- A path's template, and a method in lower case. -/
abbrev OperationKey := Template ×ₗ String

section Inferring

variable [Foreign] [Decompressors]

/-- The host to describe, when one is given. -/
def Options.hostOf (options : Options) : Option String :=
  (options.host.map trim).filter (· ≠ "")

def used (exchanges : List Exchange) (options : Options) : List Exchange :=
  exchanges.filter (usable options.hostOf)

def segments (exchange : Exchange) : List String :=
  splitPath Foreign.lossy exchange.request.uri.path

def templatesOf (exchanges : List Exchange) (options : Options) : SortedSet Template :=
  learn ((used exchanges options).map segments)

def methodOf (exchange : Exchange) : String := toAsciiLowercase exchange.request.method

/-- One more exchange in the operation it belongs to. -/
def addExchange (templates : SortedSet Template) (operations : List (OperationKey × Operation))
    (exchange : Exchange) : List (OperationKey × Operation) :=
  match find templates (segments exchange) with
  | some template => SortedMap.entry (toLex (template, methodOf exchange)) {}
      (·.add exchange (segments exchange) template) operations
  | none => operations

def operationsOf (exchanges : List Exchange) (options : Options) :
    List (OperationKey × Operation) :=
  (used exchanges options).foldl (addExchange (templatesOf exchanges options)) []

/-- The document's paths; an operation takes the place of one that is written like it. -/
def pathsOf (operations : List (OperationKey × Operation)) :
    List (String × List (String × OperationView)) :=
  operations.foldl (fun paths (key, operation) =>
    let (template, method) := ofLex key
    let view := operation.render template method
    SortedMap.entry (render template) [] (SortedMap.entry method view fun _ => view) paths) []

/-- The hosts of exchanges that belong to a template, each with its first scheme. -/
def hostsOf (exchanges : List Exchange) (options : Options) : List (String × String) :=
  let templates := templatesOf exchanges options
  ((used exchanges options).filter fun exchange => (find templates (segments exchange)).isSome).foldl
    (fun hosts exchange => SortedMap.entry (toAsciiLowercase exchange.request.host)
      exchange.request.scheme id hosts) []

def infer (exchanges : List Exchange) (options : Options) : Document × Summary :=
  let operations := operationsOf exchanges options
  let hosts := hostsOf exchanges options
  let paths := pathsOf operations
  let title := options.title.getD (match hosts with
    | [(one, _)] => one ++ " API"
    | _ => "Observed API")
  ({ title
     observed := (used exchanges options).length
     servers := hosts.map fun (host, scheme) => scheme ++ "://" ++ host
     paths
     bearer := operations.any fun operation => operation.2.bearer
     basic := operations.any fun operation => operation.2.basic },
   { requests := min (used exchanges options).length (2 ^ 32 - 1)
     skipped := min (exchanges.length - (used exchanges options).length) (2 ^ 32 - 1)
     paths := min paths.length (2 ^ 32 - 1)
     operations := min operations.length (2 ^ 32 - 1)
     hosts := hosts.map Prod.fst })

end Inferring

end Teitunnel.OpenApi
