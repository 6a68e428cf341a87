import Mathlib
import Abacus.Service

/-!
# Routes

The endpoints stand before the site among the routes of a service. So a site takes no request away
from an endpoint, and it gets all the others that its paths are asked for in.

* `Request.Fits`, `Request.IsRedirected`: requests that an endpoint takes, and requests for a path
  that has a slash too many or too few;
* `Endpoint.hasPath_unique`: a path is that of one endpoint at most;
* `Service.route?_eq`, `Service.route?_of_fits`, `Service.route?_of_not_fits`: the first route that
  takes a request;
* `Service.knows_iff`, `Service.fallback_of_isRedirected`, `Service.fallback_of_not_isRedirected`:
  the paths of a service without a site, and what becomes of a request that no route takes.
-/

namespace Abacus

/-! ## Requests -/

namespace Request

/-- Some endpoint has the method and the path of a request. -/
def Fits (r : Request) : Prop := ∃ e ∈ Endpoint.all, e.hasPath r.path = true ∧ r.method = e.method

/-- The request for the path with a slash more or fewer at its end. -/
def withOtherSlash (r : Request) : Request := { r with path := Service.otherSlash r.path }

/-- No endpoint has the path of a request, but one has it with a slash more or fewer at its end. -/
def IsRedirected (r : Request) : Prop :=
  (∀ e ∈ Endpoint.all, e.hasPath r.path = false) ∧
    ∃ e ∈ Endpoint.all, e.hasPath (Service.otherSlash r.path) = true

variable {r : Request}

/-- A request for a path that an endpoint has is not redirected. -/
theorem not_isRedirected_of_hasPath {e : Endpoint} (he : e ∈ Endpoint.all)
    (h : e.hasPath r.path = true) : ¬r.IsRedirected := by
  rintro ⟨hunknown, -⟩
  rw [hunknown e he] at h
  cases h

/-- The root is not redirected. -/
theorem path_ne_root (h : r.IsRedirected) : r.path ≠ "/" := by
  intro hroot
  obtain ⟨e, he, hpath⟩ := h.2
  rw [hroot] at hpath
  revert e
  decide

end Request

/-! ## Paths of endpoints -/

namespace Endpoint

variable {e e' : Endpoint}

theorem mem_all (e : Endpoint) : e ∈ all := by
  cases e with
  | direct op => cases op <;> decide
  | calculate => decide
  | index => decide

theorem path_injective : Function.Injective path := by
  intro e e' h
  have hall : ∀ e ∈ all, ∀ e' ∈ all, e.path = e'.path → e = e' := by decide +kernel
  exact hall e (mem_all e) e' (mem_all e') h

theorem notMem_path (e : Endpoint) : CodePoint.ofChar '\n' ∉ e.path := by
  have hall : ∀ e ∈ all, CodePoint.ofChar '\n' ∉ e.path := by decide +kernel
  exact hall e (mem_all e)

/-- **A path is that of one endpoint at most**, with a line feed at its end or without. -/
theorem hasPath_unique {path : Text} (h : e.hasPath path = true) (h' : e'.hasPath path = true) :
    e = e' := by
  have hfeed : ∀ {e e' : Endpoint}, e.path ≠ e'.path ++ ("\n" : Text) := by
    intro e e' heq
    refine notMem_path e ?_
    rw [heq]
    exact List.mem_append_right _ List.mem_cons_self
  rw [hasPath, Bool.or_eq_true, decide_eq_true_eq, decide_eq_true_eq] at h h'
  rcases h with rfl | rfl <;> rcases h' with h' | h'
  · exact path_injective h'
  · exact absurd h' hfeed
  · exact absurd h'.symm hfeed
  · exact path_injective (List.append_cancel_right h')

theorem fits_iff {r : Request} :
    e.fits r = true ↔ e.hasPath r.path = true ∧ r.method = e.method := by
  rw [fits, Bool.and_eq_true, decide_eq_true_eq]

end Endpoint

/-! ## The first route -/

namespace Service

variable {s : Service} {r : Request}

/-- **The endpoints come before the site.** -/
theorem route?_eq (s : Service) (r : Request) :
    s.route? r = ((Endpoint.all.find? fun e => e.fits r).map .endpoint).or
      ((s.folder?.filter fun _ => Site.owns r.path).map .site) := by
  have hsite : (s.folder?.toList.map Route.site).find? (fun route => route.takes r) =
      (s.folder?.filter fun _ => Site.owns r.path).map .site := by
    cases s.folder? with
    | none => rfl
    | some folder =>
      change [Route.site folder].find? _ = _
      rw [List.find?_singleton, Route.takes, Option.filter_some]
      split_ifs <;> rfl
  rw [route?, routes, List.find?_append, List.find?_map, hsite]
  rfl

theorem takes_of_route? {route : Route} (h : s.route? r = some route) : route.takes r = true := by
  rw [route?] at h
  have htakes := List.find?_some h
  exact htakes

/-- **The endpoint that a request fits takes it.** -/
theorem route?_of_fits (s : Service) {e : Endpoint} (hpath : e.hasPath r.path = true)
    (hmethod : r.method = e.method) : s.route? r = some (.endpoint e) := by
  have hsome : (Endpoint.all.find? fun e => e.fits r).isSome = true :=
    List.find?_isSome.2 ⟨e, Endpoint.mem_all e, Endpoint.fits_iff.2 ⟨hpath, hmethod⟩⟩
  obtain ⟨e', he'⟩ := Option.isSome_iff_exists.1 hsome
  have hfits := List.find?_some he'
  rw [Endpoint.fits_iff] at hfits
  rw [route?_eq, he', Endpoint.hasPath_unique hpath hfits.1]
  rfl

/-- What no endpoint takes is for the site, if there is one that has its path. -/
theorem route?_of_not_fits (s : Service) (h : ¬r.Fits) :
    s.route? r = (s.folder?.filter fun _ => Site.owns r.path).map .site := by
  have hnone : (Endpoint.all.find? fun e => e.fits r) = none :=
    List.find?_eq_none.2 fun e he hfits => h ⟨e, he, Endpoint.fits_iff.1 hfits⟩
  rw [route?_eq, hnone]
  rfl

/-! ## Services without a site -/

/-- The paths of a service without a site are those of endpoints. -/
theorem knows_iff (hfolder : s.folder? = none) {path : Text} :
    s.knows path = true ↔ ∃ e ∈ Endpoint.all, e.hasPath path = true := by
  rw [knows, routes, hfolder, Option.toList_none, List.map_nil, List.append_nil, List.any_map,
    List.any_eq_true]
  rfl

/-- The condition under which a request is sent to another path. -/
theorem isRedirected_iff (hfolder : s.folder? = none) :
    (!s.knows r.path && decide (r.path ≠ "/") && s.knows (otherSlash r.path)) = true ↔
      r.IsRedirected := by
  have hunknown : (!s.knows r.path) = true ↔ ∀ e ∈ Endpoint.all, e.hasPath r.path = false := by
    simp only [Bool.not_eq_true', ← Bool.not_eq_true, knows_iff hfolder, not_exists, not_and]
  rw [Bool.and_eq_true, Bool.and_eq_true, decide_eq_true_eq, hunknown, knows_iff hfolder]
  constructor
  · rintro ⟨⟨hpath, -⟩, hother⟩
    exact ⟨hpath, hother⟩
  · intro h
    exact ⟨⟨h.1, Request.path_ne_root h⟩, h.2⟩

/-- **What no route takes is redirected** for a slash too many or too few. -/
theorem fallback_of_isRedirected (hfolder : s.folder? = none) (h : r.IsRedirected) :
    s.fallback r = .ok (.redirect (Location.ofPath (otherSlash r.path) r.query)) := by
  rw [fallback, if_pos ((isRedirected_iff hfolder).2 h)]

/-- **What no route takes is otherwise for nothing.** -/
theorem fallback_of_not_isRedirected (hfolder : s.folder? = none) (h : ¬r.IsRedirected) :
    s.fallback r = .error .notFound := by
  rw [fallback, if_neg (mt (isRedirected_iff hfolder).1 h)]

end Service

end Abacus
