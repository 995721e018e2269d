/-
# The registry of routes

The core finds a source's route by its name and asks it three things: to verify a request, to make
an event of it, and whether a queued event still stands.  What a route's object holds is `σ`; the
methods work on it, and raise a `Refusal`, an exception by the class it is caught by.

A route carries what the core relies on when it meets the route's events again: they bear the
route's own name.  A registry carries what `register` checks: a route stands under its name.
-/
import BasecradleRouter.Lib.OrderedDict
import BasecradleRouter.Lib.Py
import BasecradleRouter.Models
import BasecradleRouter.Routes.Base
import Mathlib.Data.String.Basic

namespace BasecradleRouter.Routes

open BasecradleRouter.Lib BasecradleRouter.Models

/-- What a route's method raises: the classes the core catches, and any other. -/
inductive Refusal
  | signature (text : String)
  | config (text : String)
  | payload (text : String)
  | untrusted (text : String)
  | other (text : String)
  deriving DecidableEq, Repr

/-- `str(exc)` -/
def Refusal.text : Refusal → String
  | .signature text => text
  | .config text => text
  | .payload text => text
  | .untrusted text => text
  | .other text => text

/-- What reading a request raised, by the class it is caught by. -/
def Raised.refusal : Raised → Refusal
  | .payload text => .payload text
  | .untrusted text => .untrusted text
  | .typeError text => .other text
  | .valueError text => .other text
  | .loads name => .other name

/-- The event, if there is one, bears the source's name. -/
def Stamped (source : String) (event : Option Event) : Prop := ∀ e ∈ event, e.source = source

/-- One source's module; `requiresSecret` is what `route_requires_secret` says of it. -/
structure Route (σ : Type) where
  name : String
  recipientKind : String
  synthetic : Bool
  requiresSecret : Bool
  verify : InboundRequest → Option String → Py σ Refusal Unit
  normalize : InboundRequest → Py σ Refusal (Option Event)
  recheck : Event → σ → Option String
  stamps : ∀ request, Py.Returns (Stamped name) (normalize request)

/-- `RouteRegistry` -/
structure RouteRegistry (σ : Type) where
  routes : OrderedDict String (Route σ)
  named : ∀ name route, routes.get name = some route → route.name = name

namespace RouteRegistry

variable {σ : Type} (py : Runtime) (registry : RouteRegistry σ)

/-- `RouteRegistry()` -/
def empty : RouteRegistry σ where
  routes := .empty
  named name route h := by cases h

/-- A route put under its name stands there, and the others stand as they did. -/
theorem named_set (route : Route σ) (name : String) (route' : Route σ)
    (h : (registry.routes.set route.name route).get name = some route') : route'.name = name := by
  rcases OrderedDict.get_set_some h with ⟨rfl, rfl⟩ | h
  · rfl
  · exact registry.named name route' h

/-- `register`, of a route with the methods of one. -/
def register (route : Route σ) : Except String (RouteRegistry σ) :=
  if route.name = "" then .error "route must declare a non-empty name"
  else if (registry.routes.get route.name).isSome then
    .error ("route " ++ py.repr route.name ++ " is already registered")
  else .ok ⟨registry.routes.set route.name route, registry.named_set route⟩

/-- `get`, raising an `UnknownRouteError` with its text. -/
def get (name : String) : Except String (Route σ) :=
  match registry.routes.get name with
  | some route => .ok route
  | none =>
    let known := String.intercalate ", " (registry.routes.items.map Prod.fst).mergeSort
    .error ("no route registered for source " ++ py.repr name ++ "; known routes: " ++
      if known = "" then "(none)" else known)

/-- `routes`: every registered route, in the order of the names. -/
def list : List (Route σ) :=
  (registry.routes.items.map Prod.fst).mergeSort.filterMap registry.routes.get

/-- `_recheck`, before a blank answer is told from none. -/
def recheck (event : Event) (object : σ) : Option String :=
  match registry.routes.get event.source with
  | some route => route.recheck event object
  | none => none

variable {py registry}

theorem get_ok {name : String} {route : Route σ} :
    registry.get py name = .ok route ↔ registry.routes.get name = some route := by
  unfold get
  cases registry.routes.get name with
  | none => simp
  | some route' => simp

/-- What is enumerated is what is registered. -/
theorem mem_list {route : Route σ} :
    route ∈ registry.list ↔ registry.routes.get route.name = some route := by
  unfold list
  simp only [List.mem_filterMap, List.mem_mergeSort, List.mem_map]
  constructor
  · rintro ⟨name, -, hget⟩
    rw [registry.named name route hget]
    exact hget
  · intro h
    exact ⟨route.name, ⟨(route.name, route), OrderedDict.mem_items.mpr h, rfl⟩, h⟩

/-- The enumeration goes through the names, each once. -/
theorem list_names :
    registry.list.map Route.name = (registry.routes.items.map Prod.fst).mergeSort := by
  unfold list
  rw [List.map_filterMap]
  refine (List.filterMap_congr fun name hname => ?_).trans List.filterMap_some
  rw [List.mem_mergeSort, List.mem_map] at hname
  obtain ⟨item, hitem, rfl⟩ := hname
  have hget := OrderedDict.mem_items.mp hitem
  rw [hget, Option.map_some, registry.named _ _ hget]

theorem list_names_nodup : (registry.list.map Route.name).Nodup := by
  rw [list_names]
  exact (List.mergeSort_perm _ _).nodup_iff.mpr registry.routes.nodup

/-- What is registered after one more route is that route, or was registered before. -/
theorem register_get {route : Route σ} {registry' : RouteRegistry σ}
    (h : registry.register py route = .ok registry') {name : String} {route' : Route σ}
    (hget : registry'.routes.get name = some route') :
    (name = route.name ∧ route' = route) ∨ registry.routes.get name = some route' := by
  unfold register at h
  split at h
  · cases h
  split at h
  · cases h
  · cases h
    exact OrderedDict.get_set_some hget

end RouteRegistry

end BasecradleRouter.Routes
