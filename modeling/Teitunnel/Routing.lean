import Teitunnel.CfApi

/-!
# Load balancing and private networks

What was observed of a hostname's load balancer, and of the account's private ranges and
hostnames.
-/

namespace Teitunnel

open Text

/-- The CNAME target of a tunnel. -/
def tunnelTarget (tunnelId : String) : String :=
  tunnelId ++ ".cfargotunnel.com"

/-! ## Load balancing -/

/-- The ownership marker in the description of what is created for `hostname`. -/
def lbMarker (hostname : String) : String :=
  "teitunnel:lb=" ++ toAsciiLowercase hostname

/-- The pool's name: letters, digits, `-` and `_` only. -/
def poolName (hostname : String) : String :=
  "teitunnel-" ++ String.ofList ((toAsciiLowercase hostname).toList.map fun c =>
    if isAsciiAlphanumeric c || c == '-' then c else '_')

/-- The `Host` header of requests for `hostname`. -/
def hostHeader (hostname : String) : HeaderMap :=
  [("Host", [toAsciiLowercase hostname])]

/-- The health monitor for `hostname`. -/
def monitorFor (hostname : String) : Monitor where
  id := ""
  kind := "https"
  description := lbMarker hostname
  path := "/"
  expectedCodes := "2xx"
  followRedirects := true
  header := hostHeader hostname

/-- A pool endpoint for one tunnel. -/
def originFor (hostname tunnelId name : String) : Origin where
  name := name
  address := tunnelTarget tunnelId
  enabled := true
  header := hostHeader hostname

/-- A tunnel of the account whose configuration routes the hostname. -/
structure ServingTunnel where
  id : String
  name : String
  deriving DecidableEq

/-- Load balancing for one hostname, as observed. -/
structure BalanceState where
  hostname : String
  zoneId : String
  balancer : Option LoadBalancer
  pool : Option Pool
  monitor : Option Monitor
  /-- Tunnels routing the hostname. -/
  serving : List ServingTunnel
  deriving DecidableEq

namespace BalanceState

/-- Whether the load balancer is ours (or there is none). -/
def owned (state : BalanceState) : Bool :=
  state.balancer.all fun lb => lb.description == lbMarker state.hostname

/-- Whether the hostname is balanced by us now. -/
def active (state : BalanceState) : Bool :=
  state.balancer.isSome && state.owned

end BalanceState

/-! ## Private networks -/

/-- The comment on routes created (IP and hostname routes). -/
def NETWORK_COMMENT : String := "Added by Teitunnel"

/-- A private network route in the account. -/
structure ObservedNetworkRoute where
  id : String
  network : String
  tunnelId : String
  tunnelName : Option String
  /-- `none`: unknown, treated as the default one. -/
  virtualNetworkId : Option String
  comment : String
  deriving DecidableEq

/-- The range, if it parses. -/
def ObservedNetworkRoute.range [External] (r : ObservedNetworkRoute) : Option PrivateNetwork :=
  (PrivateNetwork.parse r.network).toOption

/-- A private hostname route in the account. -/
structure ObservedHostnameRoute where
  id : String
  hostname : String
  tunnelId : String
  tunnelName : Option String
  comment : String
  deriving DecidableEq

/-- Private networks as observed for a change. -/
structure NetworkState where
  defaultVnet : Option String
  routes : List ObservedNetworkRoute
  /-- `none` when they couldn't be read. -/
  hostnames : Option (List ObservedHostnameRoute)
  deriving DecidableEq

namespace NetworkState

/-- Whether a route is in the default virtual network, or may be. -/
def inDefault (state : NetworkState) (r : ObservedNetworkRoute) : Bool :=
  match r.virtualNetworkId, state.defaultVnet with
  | some route, some default_ => route == default_
  -- unknown on either side: assume the default
  | _, _ => true

/-- Routes in the default virtual network. -/
def inDefaultVnet (state : NetworkState) : List ObservedNetworkRoute :=
  state.routes.filter state.inDefault

/-- Routes to `tunnelId`. -/
def ofTunnel (state : NetworkState) (tunnelId : String) : List ObservedNetworkRoute :=
  state.routes.filter fun r => r.tunnelId == tunnelId

/-- Hostname routes to `tunnelId`. -/
def hostnamesOfTunnel (state : NetworkState) (tunnelId : String) : List ObservedHostnameRoute :=
  (state.hostnames.getD []).filter fun r => r.tunnelId == tunnelId

/-- Hostname routes for `hostname`, to any tunnel. -/
def hostnameRoutes (state : NetworkState) (hostname : PrivateHostname) :
    List ObservedHostnameRoute :=
  (state.hostnames.getD []).filter (hostname.Matches ·.hostname)

end NetworkState

end Teitunnel
