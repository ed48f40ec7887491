import Teitunnel.Lens.Http

/-!
# Cookies

Reading a cookie, and taking the session's out of what goes to the origin.
-/

namespace Teitunnel.Lens

open Text

def COOKIE : String := "cookie"

/-- A cookie's value. -/
def cookieValue (headers : HeaderMap) (name : String) : Option String :=
  let values := (headers.getAll COOKIE).filterMap HeaderValue.toStr
  let pairs := (values.flatMap (split ';')).filterMap fun pair => splitOnce '=' (trim pair)
  (pairs.find? fun pair => pair.1 == name).map Prod.snd

/-- Whether a pair stays when a cookie is removed. -/
def isOther (name pair : String) : Bool :=
  match splitOnce '=' pair with
  | some (key, _) => key != name
  | none => true

/-- A line of cookies without one of them. -/
def withoutCookie (name value : String) : String :=
  String.intercalate "; " (((split ';' value).map trim).filter (isOther name))

def appendCookie (headers : HeaderMap) (value : String) : HeaderMap :=
  match HeaderValue.fromStr value with
  | some value => headers.append COOKIE value
  | none => headers

/-- Removes one cookie. -/
def stripCookie (headers : HeaderMap) (name : String) : HeaderMap :=
  let values := ((headers.getAll COOKIE).filterMap HeaderValue.toStr).map (withoutCookie name)
  (values.filter (· ≠ "")).foldl appendCookie (headers.remove COOKIE)

end Teitunnel.Lens
