import Abacus.Service.Calculation
import Abacus.Service.Site
import Abacus.Settings

/-!
# The service

A request goes to the first route that takes it: the endpoints are tried in their order, then the
static site, if there is one. A path that no route has, but one would have with a slash more or
fewer at its end, is redirected.

Pages on which the service describes itself are left out; a request for one of them is for nothing
here.

* `Service`, `Service.startRecords`: a service and the records of its start.
* `Service.Route`, `Service.routes`, `Service.route?`: the routes in their order, and the one that
  takes a request.
* `Service.outcome`, `Service.answer`: the outcome for a request, and the response to it with the
  records of the log.
-/

namespace Abacus

/-- A running service. -/
structure Service where
  settings : Settings
  files : Files
  /-- How expressions are evaluated. -/
  evaluate : Evaluator

namespace Service

/-- A service that evaluates in the usual way. -/
def ofSettings (settings : Settings) (files : Files) : Service :=
  ⟨settings, files, Calculation.evaluator⟩

/-- The place of the static folder, if there is one. -/
def folder? (s : Service) : Option Place :=
  s.settings.staticFolder.bind fun p => (s.files.resolve p).toOption

/-- The records of the start of a service. -/
def startRecords (settings : Settings) : List Log.Record :=
  match settings.staticFolder with
  | some p => [Log.info (("📁 Serving static files from " : Text) ++ p.text)]
  | none => []

/-- What a service has for requests: an endpoint, or a folder for all of its paths. -/
inductive Route
  | endpoint (e : Endpoint)
  | site (folder : Place)
  deriving DecidableEq

namespace Route

/-- Whether a route has a path. -/
def hasPath : Route → Text → Bool
  | endpoint e, path => e.hasPath path
  | site _, path => Site.owns path

/-- Whether a route takes a request: an endpoint only with its own method, the site with any. -/
def takes : Route → Request → Bool
  | endpoint e, r => e.fits r
  | site _, r => Site.owns r.path

end Route

/-- The routes in the order in which they are tried. -/
def routes (s : Service) : List Route :=
  Endpoint.all.map .endpoint ++ s.folder?.toList.map .site

/-- The first route that takes a request. -/
def route? (s : Service) (r : Request) : Option Route := s.routes.find? fun route => route.takes r

/-- Whether some route has a path. -/
def knows (s : Service) (path : Text) : Bool := s.routes.any fun route => route.hasPath path

/-- The path with a slash put at its end, or with all of them taken away. -/
def otherSlash (path : Text) : Text :=
  if path.endsWith "/" then path.trimEndWith fun (c : CodePoint) => c = '/'
  else path ++ ("/" : Text)

/-- The outcome for a request that no route takes. -/
def fallback (s : Service) (r : Request) : Except Interruption Response :=
  if !s.knows r.path && r.path ≠ "/" && s.knows (otherSlash r.path) then
    .ok (.redirect (Location.ofPath (otherSlash r.path) r.query))
  else .error .notFound

/-- The answer of an endpoint. -/
def endpointAnswer (s : Service) (e : Endpoint) (r : Request) : Except Interruption Response :=
  match e with
  | .direct op => Direct.answer op r.query
  | .calculate => Calculation.answer s.settings.depth s.evaluate r.body
  | .index => .ok Index.answer

/-- The answer of a route. -/
def routeAnswer (s : Service) (route : Route) (r : Request) : Except Interruption Response :=
  match route with
  | .endpoint e => s.endpointAnswer e r
  | .site folder => Site.answer s.files folder r

/-- The outcome for a request. -/
def outcome (s : Service) (r : Request) : Except Interruption Response :=
  match s.route? r with
  | some route => s.routeAnswer route r
  | none => s.fallback r

/-- The response to a request and the records of the log. -/
def answer (s : Service) (r : Request) : Response × List Log.Record :=
  Interruption.conclude r (s.outcome r)

end Service

end Abacus
