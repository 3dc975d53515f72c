import Rauta.Maglev.Removal
import Rauta.Retry
import Rauta.Router.Recovery

/-!
# The two front ends

`request_handler::handle_request` and `ListenerManager::handle_request`, up to the choice of a
backend. Both map the method, answer some requests themselves, and ask the router for the rest: the
first one `select_backend`, the second one `select_backend_with_headers`.

Maglev spreads the clients of a path over the backends by their addresses. The listener hands the
address of the peer to the router, and 48 free bits reach every slot of the table
(`Route.OwnsSlot.exists_probe`). The request handler hands over none, so that the path alone
decides: all its requests for a path go to one backend.
-/

namespace Rauta

open Transition

/-! ## Selection -/

/-- The request line and the host of a request: its `Host` header, or else its authority, or else
empty. -/
structure FrontRequest where
  method : HyperMethod
  path : Str
  host : Str

/-- The paths that `request_handler::handle_request` answers itself, under `GET`. -/
def ownEndpoints : List Str := ["/metrics".toList, "/healthz".toList, "/status".toList]

/-- The request is not for the router. -/
def FrontRequest.isOwn (req : FrontRequest) : Bool := req.path ∈ ownEndpoints ∧ req.method = .get

/-- The routing method that `ListenerManager::handle_request` gives a request; it rejects those
without. -/
def HyperMethod.listenerMethod : HyperMethod → Option HttpMethod
  | .get => some .get
  | .post => some .post
  | .put => some .put
  | .delete => some .delete
  | .patch => some .patch
  | .head => some .head
  | .options => some .options
  | .other _ => none

/-- `request_handler::handle_request`. -/
def requestHandler (M : Matchit) (s : Router) (req : FrontRequest) : Option RouteMatch × Router :=
  if req.isOwn then (none, s)
  else s.selectBackend M req.method.toHttpMethod req.path none none

/-- `ListenerManager::handle_request`. -/
def listenerManager (M : Matchit) (R : RegexCrate) (s : Router) (req : FrontRequest)
    (peerAddr : Option (IpAddr × UInt16)) : Option RouteMatch :=
  if req.host = [] then none
  else
    match req.method.listenerMethod with
    | none => none
    | some method =>
      s.selectBackendWithHeaders M R method req.path (peerAddr.map Prod.fst) (peerAddr.map Prod.snd)
        [("host".toList, req.host)]

/-- The front ends. -/
inductive FrontEnd where
  | requestHandler
  | listenerManager
  deriving DecidableEq

namespace FrontEnd

/-- The backend that a request from a client is sent to. -/
def target (M : Matchit) (R : RegexCrate) (s : Router) (frontEnd : FrontEnd) (req : FrontRequest)
    (client : IpAddr × UInt16) : Option Backend :=
  match frontEnd with
  | .requestHandler => (Rauta.requestHandler M s req).1.map (·.backend)
  | .listenerManager => (Rauta.listenerManager M R s req (some client)).map (·.backend)

/-- The request is served by the route. -/
def Serves (M : Matchit) (s : Router) (frontEnd : FrontEnd) (req : FrontRequest) (route : Route) :
    Prop :=
  match frontEnd with
  | .requestHandler => req.isOwn = false ∧
    ∃ key, (s.resolve M req.method.toHttpMethod req.path).1 = some key ∧
      s.routes.lookup key = some route
  | .listenerManager => req.host ≠ [] ∧ ∃ method, req.method.listenerMethod = some method ∧
    ∃ key, s.lookupExactOrPrefix M method req.path = some key ∧ s.routes.lookup key = some route

/-- Every backend with a slot gets the request from some IPv4 client. -/
def ReachesAll (M : Matchit) (R : RegexCrate) (s : Router) (frontEnd : FrontEnd)
    (req : FrontRequest) (route : Route) : Prop :=
  ∀ b, route.OwnsSlot b → ∃ addr port, frontEnd.target M R s req (.v4 addr, port) = some b

variable {M : Matchit} {R : RegexCrate} {s : Router} {frontEnd : FrontEnd} {req : FrontRequest}
  {pattern : Str} {backends : List Backend} {table : List Nat}

/-! ## Who is reached -/

/-- The listener sends a request to the backend of its first probe. -/
theorem target_listenerManager
    (hserves : listenerManager.Serves M s req (.basic pattern backends table))
    {client : IpAddr × UInt16} {b : Backend} (hb : s.eligible b)
    (hprobe : (Route.basic pattern backends table).backends[
      (Route.basic pattern backends table).probe
        (computeFlowHash (pathHash req.path) (some client.1) (some client.2)) 0]? = some b) :
    listenerManager.target M R s req client = some b := by
  obtain ⟨hhost, method, hmethod, key, hkey, hroute⟩ := hserves
  have hselect := Route.selectBySet_first hprobe (Router.eligible_iff.mp hb).1
  have haccepts : ∀ headers, (Route.basic pattern backends table).acceptsHeaders R headers :=
    fun _ => rfl
  simp [target, Rauta.listenerManager, hhost, hmethod, Router.selectBackendWithHeaders,
    Router.selectMatching, hkey, hroute, haccepts, hselect, Route.toMatch]

/-- The request handler sends it to the backend of the path's slot, whoever the client is. -/
theorem target_requestHandler
    (hserves : requestHandler.Serves M s req (.basic pattern backends table))
    (client : IpAddr × UInt16) {b : Backend} (hb : s.eligible b)
    (hprobe : (Route.basic pattern backends table).backends[
      (Route.basic pattern backends table).probe (pathHash req.path) 0]? = some b) :
    requestHandler.target M R s req client = some b := by
  obtain ⟨hown, key, hkey, hroute⟩ := hserves
  have hselect := Route.selectByMask_first hprobe hb
  have hopen : (Route.basic pattern backends table).methodMatches = none := rfl
  simp [target, Rauta.requestHandler, hown, Router.selectBackend, hkey, Router.selectFrom, hroute,
    hopen, computeFlowHash, hselect, Route.toMatch]

/-- **A share of the clients**: the listener reaches every backend with a slot; the request handler
does exactly when there is only one. -/
theorem reachesAll_iff (htable : maglevBuildCompactTable backends = some table)
    (heligible : ∀ b ∈ backends, s.eligible b)
    (hserves : frontEnd.Serves M s req (.basic pattern backends table)) :
    frontEnd.ReachesAll M R s req (.basic pattern backends table) ↔
      frontEnd = .listenerManager ∨
        ∀ b b', (Route.basic pattern backends table).OwnsSlot b →
          (Route.basic pattern backends table).OwnsSlot b' → b = b' := by
  cases frontEnd with
  | listenerManager =>
      refine ⟨fun _ => Or.inl rfl, fun _ b hb => ?_⟩
      obtain ⟨addr, port, hprobe⟩ := hb.exists_probe req.path
      refine ⟨addr, port, target_listenerManager hserves (heligible b ?_) hprobe⟩
      exact List.mem_of_getElem? hprobe
  | requestHandler =>
      constructor
      · -- No client gets any other answer.
        intro hall
        right
        intro b b' hb hb'
        obtain ⟨_, _, htarget⟩ := hall b hb
        obtain ⟨_, _, htarget'⟩ := hall b' hb'
        exact Option.some.inj (htarget.symm.trans htarget')
      · rintro (h | honly) b hb
        · cases h
        · have hne : backends ≠ [] := by
            obtain ⟨k, hk⟩ := hb
            exact List.ne_nil_of_mem (List.mem_of_getElem? hk)
          obtain ⟨b', hb', hprobe⟩ := Route.exists_slot pattern hne htable
            ((pathHash req.path + 0) % 2 ^ 64)
          obtain rfl := honly b b' hb ⟨_, hprobe⟩
          exact ⟨0, 0, target_requestHandler hserves _ (heligible b hb') hprobe⟩

/-- The router of the samples: `GET /api`, with the three backends of the disruption test. -/
def threeWays : Router := Router.started .scan .newestFirst .get "/api".toList threeBackends

theorem threeWays_onlyRoute : ∃ table, maglevBuildCompactTable threeBackends = some table ∧
    Router.OnlyRoute .get "/api".toList (.basic "/api".toList threeBackends table) threeWays :=
  Router.started_onlyRoute _ _ _ _ (by decide)

theorem threeWays_eligible (b : Backend) : threeWays.eligible b := by
  obtain ⟨table, -, h⟩ := threeWays_onlyRoute
  exact h.eligible_iff.mpr (Router.started_healthy ..)

/-- Through the listener, all three get their share. -/
theorem reachesAll_iff_threeWays : ∃ table, maglevBuildCompactTable threeBackends = some table ∧
    listenerManager.ReachesAll .scan ⟨fun _ => none⟩ threeWays
      ⟨.get, "/api".toList, "example.com".toList⟩ (.basic "/api".toList threeBackends table) := by
  obtain ⟨table, htable, h⟩ := threeWays_onlyRoute
  refine ⟨table, htable, (reachesAll_iff htable (fun b _ => threeWays_eligible b) ?_).mpr
    (Or.inl rfl)⟩
  exact ⟨by decide, .get, rfl, routeKey .get "/api".toList, by decide +kernel, h.own⟩

/-- **One backend for all clients**: the request handler sends every request for `/api` to the same
one of three backends. -/
theorem exists_not_reachesAll :
    ¬ ∀ (M : Matchit) (R : RegexCrate), M.Lawful → ∀ s,
      (routerSystem M).Reach System.Anything .new s → ∀ (frontEnd : FrontEnd) req pattern backends
      table, maglevBuildCompactTable backends = some table → backends.Nodup →
      (∀ b ∈ backends, s.eligible b) → frontEnd.Serves M s req (.basic pattern backends table) →
      frontEnd.ReachesAll M R s req (.basic pattern backends table) := by
  intro h
  obtain ⟨table, htable, honly⟩ := threeWays_onlyRoute
  have hreach : (routerSystem .scan).Reach System.Anything .new threeWays :=
    System.Reach.refl.tail (a := .addRoute .newestFirst .get "/api".toList threeBackends) trivial
      rfl
  have hall := h .scan ⟨fun _ => none⟩ Matchit.scan_lawful threeWays hreach .requestHandler
    ⟨.get, "/api".toList, []⟩ "/api".toList threeBackends table htable (by decide)
    (fun b _ => threeWays_eligible b)
    ⟨by decide, routeKey .get "/api".toList, by decide +kernel, honly.own⟩
  -- The first two each have a slot that they reach in the first round.
  have hfirst : ReachedFirst threeBackends 957 0 :=
    ⟨0, by decide, by decide +kernel, fun j hj => absurd hj (Nat.not_lt_zero j),
      fun m hm => absurd hm (Nat.not_lt_zero m)⟩
  have hsecond : ReachedFirst threeBackends 3880 1 :=
    ⟨0, by decide, by decide +kernel, fun j hj => absurd hj (Nat.not_lt_zero j),
      by decide +kernel⟩
  obtain ⟨_, _, htarget⟩ := hall _ (Route.ownsSlot_of_reachedFirst htable (by decide) hfirst rfl)
  obtain ⟨_, _, htarget'⟩ := hall _ (Route.ownsSlot_of_reachedFirst htable (by decide) hsecond rfl)
  cases htarget.symm.trans htarget'

end FrontEnd

end Rauta
