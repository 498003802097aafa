import Declaragent.ControlPlane.Auth
import Declaragent.Library.UrlQuery

/-!
# ControlPlane — the server

A request passes the middleware and is dispatched to the routes of its path.  The scopes that are
asked of it are looked up under the path, or under the path with `?all=1` where the query says so.

* `Enforced`, `enforced_iff`: the scopes of a path hold of every principal that reaches it, with
  every query, exactly if the variant with `?all=1` asks for them again.
-/

namespace Declaragent.ControlPlane

variable {R : Type}

/-- `none` of `fetch` declines. -/
structure ControlPlaneRoute (R : Type) where
  path : String
  fetch : Request → Option R

def HEALTH_CHECK_PATHS : List String := ["/healthz", "/readyz"]

/-- Routes of which no two have one path. -/
structure Routes (R : Type) where
  routes : List (ControlPlaneRoute R)
  unique : (routes.map ControlPlaneRoute.path).Nodup

structure ControlPlaneServer (R : Type) extends Routes R where
  allowRemote : Bool
  auth : Option ControlPlaneAuth

/-- The sniff of the `Host` header. -/
def isLocalClient (request : Request) : Bool := isLoopbackRequest request

inductive ServerResponse (R : Type) where
  /-- Status 403. -/
  | remoteDisabled (text : String)
  /-- Status 401. -/
  | unauthorized (reason : ControlPlaneAuthRejectReason) (message : String)
  /-- Status 404. -/
  | notFound (text : String)
  | handled (response : R)

/-- As what a request gets to the routes. -/
inductive Passage where
  /-- The server has no middleware. -/
  | unauthenticated
  /-- The path is one of the health checks. -/
  | exempt
  /-- The middleware takes the caller for one on the loopback interface. -/
  | bypassed
  | verified (principal : ControlPlanePrincipal)

/-- `?all=1`. -/
def fansOut (query : Text) : Prop := UrlQuery.get query ['a', 'l', 'l'] = some (Utf8.encode ['1'])

instance (query : Text) : Decidable (fansOut query) := inferInstanceAs (Decidable (_ = _))

def fanOutKey (path : String) : String := path ++ "?all=1"

namespace ControlPlaneServer
variable (server : ControlPlaneServer R)

/-- The path of the route that is about to run. -/
def routePath (request : Request) : Option String :=
  (server.routes.find? fun route => route.path = request.pathname).map ControlPlaneRoute.path

def scopeLookupPath (request : Request) : Option String :=
  (server.routePath request).map fun path =>
    if fansOut request.query then fanOutKey path else path

/-- What stands before the routes. -/
def passage (request : Request) (peerIp : Option Text) : Except (ServerResponse R) Passage :=
  if !server.allowRemote && !isLocalClient request then
    .error (.remoteDisabled "remote control-plane disabled")
  else
    match server.auth with
    | none => .ok .unauthenticated
    | some auth =>
      if request.pathname ∈ HEALTH_CHECK_PATHS then .ok .exempt
      else
        match applyControlPlaneAuth auth request
            { peerIp := peerIp, routePath := server.scopeLookupPath request } with
        | .rejected reason message => .error (.unauthorized reason message)
        | .ok _ none => .ok .bypassed
        | .ok _ (some principal) => .ok (.verified principal)

/-- The paths whose handlers run, and the response of the one that does not decline. -/
def dispatch (request : Request) : List (ControlPlaneRoute R) → List String × Option R
  | [] => ([], none)
  | route :: routes =>
    if route.path ≠ request.pathname then dispatch request routes
    else
      match route.fetch request with
      | some response => ([route.path], some response)
      | none =>
        let (ran, response) := dispatch request routes
        (route.path :: ran, response)

/-- The handlers that a request makes run, and what is answered. -/
def fetch (request : Request) (peerIp : Option Text) : List String × ServerResponse R :=
  match server.passage request peerIp with
  | .error response => ([], response)
  | .ok _ =>
    match dispatch request server.routes with
    | (ran, some response) => (ran, .handled response)
    | (ran, none) => (ran, .notFound "not found")

end ControlPlaneServer

/-- The scopes that the configuration asks for. -/
def required (routeScopes : Option (List (String × List String))) (key : String) : List String :=
  routeScopes.elim [] fun routeScopes => (routeScopes.lookup key).getD []

/-- A principal whose request makes the handler of the path run has the scopes of the path. -/
def Enforced (server : ControlPlaneServer R) (auth : ControlPlaneAuth) (path : String)
    (query : Text) : Prop :=
  ∀ request peerIp principal, request.pathname = path → request.query = query →
    server.passage request peerIp = .ok (.verified principal) →
    path ∈ (server.fetch request peerIp).1 →
    ∀ s ∈ required auth.routeScopes path, s ∈ principal.scopes

/-! ### What runs -/

section
variable {server : ControlPlaneServer R} {request : Request} {peerIp : Option Text}
  {principal : ControlPlanePrincipal}

/-- The first route of the path runs, and no route of another one. -/
theorem mem_dispatch {routes : List (ControlPlaneRoute R)} {path : String} :
    path ∈ (ControlPlaneServer.dispatch request routes).1 ↔
      path = request.pathname ∧ path ∈ routes.map ControlPlaneRoute.path := by
  induction routes with
  | nil => simp [ControlPlaneServer.dispatch]
  | cons route routes ih =>
    rw [ControlPlaneServer.dispatch]
    split
    · rename_i hne
      rw [ih, List.map_cons, List.mem_cons]
      refine and_congr_right fun hpath => ?_
      rw [or_iff_right]
      rintro rfl
      exact hne hpath
    · rename_i heq
      have hpath : route.path = request.pathname := not_not.mp heq
      split
      · rw [List.mem_singleton, List.map_cons, List.mem_cons]
        constructor
        · rintro rfl
          exact ⟨hpath, Or.inl rfl⟩
        · rintro ⟨rfl, -⟩
          exact hpath.symm
      · simp only [List.mem_cons, ih, List.map_cons]
        constructor
        · rintro (rfl | ⟨rfl, hmem⟩)
          · exact ⟨hpath, Or.inl rfl⟩
          · exact ⟨rfl, Or.inr hmem⟩
        · rintro ⟨rfl, -⟩
          exact Or.inl hpath.symm

/-- A handler runs only after the request got past what stands before the routes. -/
theorem mem_fetch {path : String} (h : path ∈ (server.fetch request peerIp).1) :
    path = request.pathname ∧ path ∈ server.routes.map ControlPlaneRoute.path := by
  refine mem_dispatch.mp ?_
  unfold ControlPlaneServer.fetch at h
  split at h
  · cases h
  · split at h <;>
      rename_i hdispatch <;>
      rw [hdispatch] <;>
      exact h

theorem mem_fetch_of_passage {passage : Passage}
    (h : server.passage request peerIp = .ok passage)
    (hroute : request.pathname ∈ server.routes.map ControlPlaneRoute.path) :
    request.pathname ∈ (server.fetch request peerIp).1 := by
  have hran : request.pathname ∈ (ControlPlaneServer.dispatch request server.routes).1 :=
    mem_dispatch.mpr ⟨rfl, hroute⟩
  unfold ControlPlaneServer.fetch
  simp only [h]
  split <;>
    rename_i hdispatch <;>
    rw [hdispatch] at hran <;>
    exact hran

theorem routePath_eq (hroute : request.pathname ∈ server.routes.map ControlPlaneRoute.path) :
    server.routePath request = some request.pathname := by
  unfold ControlPlaneServer.routePath
  cases hfind : server.routes.find? fun route => route.path = request.pathname with
  | none =>
    obtain ⟨route, hmem, hpath⟩ := List.mem_map.mp hroute
    exact absurd hpath (by simpa using List.find?_eq_none.mp hfind route hmem)
  | some route => simpa using List.find?_some hfind

/-! ### The scopes that are asked for -/

theorem enforceRouteScopes_eq_none {routeScopes : Option (List (String × List String))}
    {key : String} :
    enforceRouteScopes routeScopes (some key) principal = none ↔
      ∀ s ∈ required routeScopes key, s ∈ principal.scopes := by
  cases routeScopes with
  | none => simp [enforceRouteScopes, required]
  | some routeScopes => simp [enforceRouteScopes, required]

/-- A verified request holds what is found under the key of its path and its query. -/
theorem required_of_verified {auth : ControlPlaneAuth} {key : String}
    (hauth : server.auth = some auth) (hkey : server.scopeLookupPath request = some key)
    (h : server.passage request peerIp = .ok (.verified principal)) :
    ∀ s ∈ required auth.routeScopes key, s ∈ principal.scopes := by
  unfold ControlPlaneServer.passage at h
  split at h
  · cases h
  · rw [hauth, hkey] at h
    dsimp only at h
    split at h
    · cases h
    · split at h
      · cases h
      · cases h
      · rename_i hok
        cases h
        rcases applyControlPlaneAuth_eq_ok hok with ⟨-, hnone, -⟩ | ⟨-, _, _, -, -, heq, hscopes⟩
        · cases hnone
        · cases heq
          exact enforceRouteScopes_eq_none.mp hscopes

theorem not_health_of_verified
    (h : server.passage request peerIp = .ok (.verified principal)) :
    request.pathname ∉ HEALTH_CHECK_PATHS := by
  intro hhealth
  unfold ControlPlaneServer.passage at h
  simp only [hhealth, if_true] at h
  split at h
  · cases h
  · split at h <;> cases h

theorem scopeLookupPath_eq (hroute : request.pathname ∈ server.routes.map ControlPlaneRoute.path) :
    server.scopeLookupPath request =
      some (if fansOut request.query then fanOutKey request.pathname else request.pathname) := by
  rw [ControlPlaneServer.scopeLookupPath, routePath_eq hroute]
  rfl

end

/-- A server that lets no caller pass without a token, and takes every token for one of a principal
with these scopes. -/
def granting (routes : Routes R) (routeScopes : Option (List (String × List String)))
    (scopes : List String) : ControlPlaneServer R where
  toRoutes := routes
  allowRemote := true
  auth := some
    { verifyToken := fun _ => .ok { subject := "caller", scopes := scopes }
      allowLoopback := .scalar false
      routeScopes := routeScopes }

/-- A caller with a token. -/
def bearing (path : String) (query : Text) : Request where
  pathname := path
  query := query
  authorization := some ['B', 'e', 'a', 'r', 'e', 'r', ' ', 't']

theorem extractBearerToken_bearing (path : String) (query : Text) :
    extractBearerToken (bearing path query) = some ['t'] := by
  have hheader : ∀ request : Request,
      request.authorization = (bearing "" []).authorization →
        extractBearerToken request = extractBearerToken (bearing "" []) := by
    intro request h
    rw [extractBearerToken, h]
    rfl
  exact (hheader _ rfl).trans (by decide)

/-- The caller with the token passes with the scopes that are asked of it. -/
theorem granting_passage {routes : Routes R} {routeScopes : Option (List (String × List String))}
    {scopes : List String} {path key : String} {query : Text} (hhealth : path ∉ HEALTH_CHECK_PATHS)
    (hkey : (granting routes routeScopes scopes).scopeLookupPath (bearing path query) = some key)
    (hscopes : ∀ s ∈ required routeScopes key, s ∈ scopes) :
    (granting routes routeScopes scopes).passage (bearing path query) none =
      .ok (.verified { subject := "caller", scopes := scopes }) := by
  have hnone : enforceRouteScopes routeScopes (some key)
      { subject := "caller", scopes := scopes } = none := enforceRouteScopes_eq_none.mpr hscopes
  have htoken := extractBearerToken_bearing path query
  have hpath : (bearing path query).pathname ∉ HEALTH_CHECK_PATHS := hhealth
  unfold ControlPlaneServer.passage
  rw [hkey]
  unfold applyControlPlaneAuth
  simp only [granting, bypasses, resolveEffectivePeer, Option.map_none, Bool.not_true,
    Bool.false_and, Bool.false_eq_true, hpath, if_false, htoken, hnone]

/-- A principal with the scopes of the other key only gets to the path. -/
theorem not_enforced (routes : Routes R) (routeScopes : Option (List (String × List String)))
    (path : String) (query : Text) (hroute : path ∈ routes.routes.map ControlPlaneRoute.path)
    (hhealth : path ∉ HEALTH_CHECK_PATHS) (hfansOut : fansOut query)
    (hnot : ¬ required routeScopes path ⊆ required routeScopes (fanOutKey path)) :
    ∃ server : ControlPlaneServer R, server.toRoutes = routes ∧ ∃ auth, server.auth = some auth ∧
      auth.routeScopes = routeScopes ∧ ¬ Enforced server auth path query := by
  refine ⟨granting routes routeScopes (required routeScopes (fanOutKey path)), rfl, _, rfl, rfl, ?_⟩
  have hkey : (granting routes routeScopes (required routeScopes (fanOutKey path))).scopeLookupPath
      (bearing path query) = some (fanOutKey path) := by
    refine (scopeLookupPath_eq hroute).trans ?_
    rw [if_pos (by exact hfansOut)]
    rfl
  have hpassage := granting_passage hhealth hkey fun _ hs => hs
  intro henforced
  exact hnot (henforced (bearing path query) none _ rfl rfl hpassage
    (mem_fetch_of_passage hpassage hroute))

/-- **Scopes of routes**: every server with these routes and scopes enforces those of a path, with
this query, exactly if it looks them up under the path or finds them again under the other key. -/
theorem enforced_iff (routes : Routes R) (routeScopes : Option (List (String × List String)))
    (path : String) (query : Text) :
    (∀ server : ControlPlaneServer R, server.toRoutes = routes → ∀ auth, server.auth = some auth →
      auth.routeScopes = routeScopes → Enforced server auth path query) ↔
      (path ∈ routes.routes.map ControlPlaneRoute.path → path ∉ HEALTH_CHECK_PATHS →
        fansOut query → required routeScopes path ⊆ required routeScopes (fanOutKey path)) := by
  constructor
  · intro h hroute hhealth hfansOut
    by_contra hnot
    obtain ⟨server, hroutes, auth, hauth, hscopes, hfails⟩ :=
      not_enforced routes routeScopes path query hroute hhealth hfansOut hnot
    exact hfails (h server hroutes auth hauth hscopes)
  · rintro h server rfl auth hauth rfl request peerIp principal rfl rfl hpassage hran s hs
    obtain ⟨-, hroute⟩ := mem_fetch hran
    have hkey := scopeLookupPath_eq hroute
    split at hkey
    · rename_i hfansOut
      have hhealth : request.pathname ∉ HEALTH_CHECK_PATHS := not_health_of_verified hpassage
      exact required_of_verified hauth hkey hpassage s (h hroute hhealth hfansOut hs)
    · exact required_of_verified hauth hkey hpassage s hs

/-- `/audit?all=1` is not asked for the scope of `/audit`. -/
theorem fan_out_unscoped :
    ¬ ∀ server : ControlPlaneServer Unit,
      server.toRoutes = ⟨[⟨"/audit", fun _ => some ()⟩], List.nodup_singleton _⟩ →
      ∀ auth, server.auth = some auth → auth.routeScopes = some [("/audit", ["read:audit"])] →
        Enforced server auth "/audit" ['a', 'l', 'l', '=', '1'] := by
  intro h
  have hnot : ¬ required (some [("/audit", ["read:audit"])]) "/audit" ⊆
      required (some [("/audit", ["read:audit"])]) (fanOutKey "/audit") := by decide
  obtain ⟨server, hroutes, auth, hauth, hscopes, hfails⟩ :=
    not_enforced ⟨[⟨"/audit", fun _ => some ()⟩], List.nodup_singleton _⟩ _ "/audit"
      ['a', 'l', 'l', '=', '1'] (List.mem_singleton_self "/audit") (by decide) (by decide) hnot
  exact hfails (h server hroutes auth hauth hscopes)

end Declaragent.ControlPlane
