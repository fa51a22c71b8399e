import Mathlib.Algebra.Order.BigOperators.Group.List
import Mathlib.Algebra.Order.Group.Nat
import S3Manager.Library.PathPattern
import S3Manager.Web.BodyGuards

/-! The `path_template` label of the HTTP metrics in `main.py`: the template of the matched
route, else the one that a body guard has stamped, else the path itself. -/

set_option autoImplicit false

namespace S3Manager.Web

open Python Library

section Routes

/-- Only a route of FastAPI puts itself into the scope. Those of the documentation are routes of
Starlette, and the MCP app is mounted. -/
inductive RouteKind where
  | api
  | docs
  | mount
  deriving DecidableEq

structure AppRoute where
  kind : RouteKind
  methods : List Str
  template : Str
  pattern : PathPattern
  deriving DecidableEq

def textRoute (methods : List String) (path : String) : AppRoute where
  kind := .api
  methods := methods.map lit
  template := lit path
  pattern := [.literal (lit path)]

/-- A route with one parameter, given with its braces. -/
def segmentRoute (methods : List String) (before parameter after : String) : AppRoute where
  kind := .api
  methods := methods.map lit
  template := lit before ++ lit parameter ++ lit after
  pattern := [.literal (lit before), .segment, .literal (lit after)]

/-- What `FastAPI(...)` adds, also for `HEAD`. -/
def docsPaths : List Str :=
  [lit "/openapi.json", lit "/docs", lit "/docs/oauth2-redirect", lit "/redoc"]

def docsRoutes : List AppRoute :=
  docsPaths.map fun path => ⟨.docs, [lit "GET", lit "HEAD"], path, [.literal path]⟩

def mcpMount : AppRoute :=
  ⟨.mount, [], lit "/mcp", [.literal (lit "/mcp/"), .rest]⟩

/-- The routes that answer what is left of the local accounts. -/
def accountRoutes : List AppRoute :=
  [textRoute ["GET", "POST"] "/api/admin/users",
    segmentRoute ["PUT", "DELETE"] "/api/admin/users/" "\x7busername\x7d" "",
    segmentRoute ["PUT"] "/api/admin/users/" "\x7busername\x7d" "/password",
    textRoute ["GET"] "/api/admin/bans",
    segmentRoute ["DELETE"] "/api/admin/bans/" "\x7busername\x7d" "",
    textRoute ["PUT"] "/api/me/password",
    textRoute ["PUT"] "/api/me/default-role",
    textRoute ["GET", "POST"] "/api/me/tokens",
    segmentRoute ["DELETE", "PUT"] "/api/me/tokens/" "\x7btoken_id\x7d" "",
    textRoute ["GET", "POST"] "/api/admin/tokens",
    segmentRoute ["DELETE", "PUT"] "/api/admin/tokens/" "\x7btoken_id\x7d" ""]

/-- The routes that `main.py` registers before the mount. -/
def apiRoutes : List AppRoute :=
  [textRoute ["GET"] "/metrics", textRoute ["GET"] "/health", textRoute ["POST"] "/api/login",
    textRoute ["POST"] "/api/logout", textRoute ["GET"] "/api/me", textRoute ["GET"] "/api/app-info",
    textRoute ["PUT"] "/api/user/theme"] ++
  accountRoutes ++
  [textRoute ["GET"] "/api/config", textRoute ["GET"] "/api/config/export",
    textRoute ["POST"] "/api/config", textRoute ["GET"] "/api/buckets",
    segmentRoute ["GET"] "/api/buckets/" "\x7bbucket_name\x7d" "/files",
    segmentRoute ["POST"] "/api/buckets/" "\x7bbucket_name\x7d" "/upload",
    segmentRoute ["GET"] "/api/buckets/" "\x7bbucket_name\x7d" "/download",
    segmentRoute ["GET"] "/api/buckets/" "\x7bbucket_name\x7d" "/presigned",
    segmentRoute ["DELETE"] "/api/buckets/" "\x7bbucket_name\x7d" "/files"]

/-- `serve_spa`, the catch-all behind every other route. -/
def spaRoute : AppRoute :=
  ⟨.api, [lit "GET"], lit "/\x7bfull_path:path\x7d", [.literal ['/'], .rest]⟩

def spaRoutes : List AppRoute :=
  [textRoute ["GET", "POST", "DELETE"] "/mcp", textRoute ["GET"] "/", spaRoute]

/-- All routes, in the order in which the router tries them. -/
def routes : List AppRoute :=
  docsRoutes ++ apiRoutes ++ mcpMount :: spaRoutes

def AppRoute.serves (method : Str) (route : AppRoute) : Bool :=
  route.kind = .mount || route.methods.contains method

/-- The first route that matches path and method, else the first that matches the path. -/
def selectRoute (method path : Str) : Option AppRoute :=
  let candidates := routes.filter fun route => route.pattern.accepts path
  (candidates.find? fun route => route.serves method).or candidates.head?

/-- `route.path` of the route in the scope after routing. -/
def routedTemplate (method path : Str) : Option Str :=
  match selectRoute method path with
  | some route => if route.kind = .api then some route.template else none
  | none => none

end Routes

section Middlewares

/-- What the middlewares see of a request. Starlette builds the path of `request.url` from the
scope and the headers. A call that raises leaves no answer. -/
structure HttpRequest where
  method : Str
  path : Str
  urlPath : Str → Str
  contentLength : Option Str
  hasValidSession : Bool
  config : Dict
  answered : Bool

variable (environ : Config.Environ) (request : HttpRequest)

/-- `_mcp_canonical_path` -/
def canonicalPath (path : Str) : Str :=
  if path = lit "/mcp" then lit "/mcp/" else path

/-- The path that the metrics, the guards and the router see. -/
def HttpRequest.url : Str := request.urlPath (canonicalPath request.path)

def underMcp (url : Str) : Bool :=
  url = lit "/mcp" || startsWith url (lit "/mcp/")

/-- `_mcp_kill_switch` answers before the request is counted. -/
def HttpRequest.switchedOff : Bool :=
  underMcp (request.urlPath request.path) &&
    !(dictGetD request.config "mcp_enabled" (.bool true)).truthy

def uploadTemplate : Str := lit "/api/buckets/\x7bbucket_name\x7d/upload"

/-- `request.scope["guard_path_template"]` behind both guards. -/
def guardTemplate (method url : Str) : Option Str :=
  if guardsUpload method url then some uploadTemplate
  else if method = lit "POST" ∧ underMcp url = true then some (lit "/mcp")
  else none

/-- The label that `_http_metrics` records, if the request comes so far and is answered. -/
def HttpRequest.pathTemplate : Option Str :=
  if request.switchedOff then none
  else
    match mcpBodyGuard environ request.config request.method request.url request.contentLength with
    | .error _ => none
    | .ok (.refused _ _) => some (lit "/mcp")
    | .ok .callNext =>
        match uploadBodyGuard environ request.config request.hasValidSession request.method
            request.url request.contentLength with
        | .error _ => none
        | .ok (.refused _ _) => some uploadTemplate
        | .ok .callNext =>
            if !request.answered then none
            else
              match routedTemplate request.method (canonicalPath request.path) with
              | some template => some template
              | none => some ((guardTemplate request.method request.url).getD request.url)

/-- The label values in the registry after a run. -/
def recordedLabels (requests : List HttpRequest) : List Str :=
  requests.filterMap (HttpRequest.pathTemplate environ)

end Middlewares

section Routing

variable {method path : Str}

/-- What stands around the parameter of the routes with one. -/
def segmentPaths : List (Str × Str) :=
  apiRoutes.filterMap fun route =>
    match route.pattern with
    | [.literal before, .segment, .literal after] => some (before, after)
    | _ => none

/-- Some route matches the path, if only a newline is taken for a character of a segment. -/
def Routable (path : Str) : Prop :=
  PathPattern.Plain path ∨ ∃ around ∈ segmentPaths, PathPattern.Fits around.1 around.2 path

/-- A path of the documentation, where `$` lets a newline follow. -/
def docsLike : List Str :=
  docsPaths ++ docsPaths.map (· ++ ['\n'])

/-- The forms that patterns of the app have. -/
def knownShape : PathPattern → Bool
  | [.literal ('/' :: text)] => !text.contains '\n'
  | [.literal ('/' :: text), .rest] => !text.contains '\n'
  | [.literal before, .segment, .literal after] => segmentPaths.contains (before, after)
  | _ => false

theorem routes_shape : ∀ route ∈ routes, knownShape route.pattern = true := by
  decide +kernel

theorem accepts_routable {pattern : PathPattern} (shape : knownShape pattern = true)
    (accepted : pattern.accepts path = true) : Routable path := by
  unfold knownShape at shape
  split at shape
  · next text =>
      have clean : '\n' ∉ text := by simpa using shape
      obtain rfl | rfl := PathPattern.accepts_text_iff.mp accepted
      · exact .inl ⟨text, clean, .inl rfl⟩
      · exact .inl ⟨text, clean, .inr rfl⟩
  · next text =>
      have clean : '\n' ∉ text := by simpa using shape
      obtain ⟨_, rfl, front, later, rfl, pure, ends⟩ := by
        simpa only [PathPattern.accepts_literal_iff, PathPattern.accepts_rest_iff] using accepted
      have both : '\n' ∉ text ++ front := by simp [clean, pure]
      obtain rfl | rfl := PathPattern.accepts_nil_iff.mp ends
      · exact .inl ⟨text ++ front, both, .inl (by simp)⟩
      · exact .inl ⟨text ++ front, both, .inr (by simp)⟩
  · next before after =>
      exact .inr ⟨(before, after), by simpa using shape,
        PathPattern.accepts_fits_iff.mp accepted⟩
  · cases shape

theorem routable_iff : Routable path ↔ ∃ route ∈ routes, route.pattern.accepts path = true := by
  constructor
  · rintro (plain | ⟨⟨before, after⟩, member, fits⟩)
    · exact ⟨spaRoute, by simp [routes, spaRoutes], PathPattern.accepts_plain_iff.mpr plain⟩
    · obtain ⟨route, inApi, shape⟩ := List.mem_filterMap.mp member
      have pattern : route.pattern = [.literal before, .segment, .literal after] := by
        split at shape
        · next first last same =>
            obtain ⟨rfl, rfl⟩ := Prod.mk.inj (Option.some.inj shape)
            exact same
        · cases shape
      refine ⟨route, ?_, pattern ▸ PathPattern.accepts_fits_iff.mpr fits⟩
      exact List.mem_append_left _ (List.mem_append_right _ inApi)
  · rintro ⟨route, member, accepted⟩
    exact accepts_routable (routes_shape route member) accepted

theorem selectRoute_mem {route : AppRoute} (selected : selectRoute method path = some route) :
    route ∈ routes ∧ route.pattern.accepts path = true := by
  unfold selectRoute at selected
  have candidate : route ∈ routes.filter fun route => route.pattern.accepts path := by
    obtain found | ⟨-, first⟩ := Option.or_eq_some_iff.mp selected
    · exact List.mem_of_find?_eq_some found
    · exact List.mem_of_head? first
  exact List.mem_filter.mp candidate

theorem routedTemplate_some {template : Str} (routed : routedTemplate method path = some template) :
    ∃ route ∈ routes, route.kind = .api ∧ route.template = template ∧
      selectRoute method path = some route := by
  unfold routedTemplate at routed
  split at routed
  · next route selected =>
      split at routed
      · next api =>
          exact ⟨route, (selectRoute_mem selected).1, api, Option.some.inj routed, selected⟩
      · cases routed
  · cases routed

theorem rest_tail {c : Char} {text : Str} (other : c ≠ '\n')
    (accepted : PathPattern.accepts [.rest] (c :: text) = true) :
    PathPattern.accepts [.rest] text = true := by
  rw [PathPattern.accepts_rest_iff] at accepted ⊢
  obtain ⟨front, later, cut, clean, ends⟩ := accepted
  cases front with
  | nil =>
      obtain rfl : c :: text = later := cut
      simp [PathPattern.accepts_nil_iff, other] at ends
  | cons first front =>
      obtain ⟨rfl, rfl⟩ := List.cons.inj cut
      exact ⟨front, later, rfl, fun member => clean (List.mem_cons_of_mem _ member), ends⟩

/-- Where the catch-all matches a path below the mount, the mount does. -/
theorem mount_accepts {rest : Str}
    (accepted : spaRoute.pattern.accepts (lit "/mcp/" ++ rest) = true) :
    mcpMount.pattern.accepts (lit "/mcp/" ++ rest) = true := by
  obtain ⟨later, cut, tail⟩ := PathPattern.accepts_literal_iff.mp accepted
  obtain rfl : 'm' :: 'c' :: 'p' :: '/' :: rest = later := (List.cons.inj cut).2
  refine PathPattern.accepts_literal_iff.mpr ⟨rest, rfl, ?_⟩
  exact rest_tail (by decide) (rest_tail (by decide) (rest_tail (by decide)
    (rest_tail (by decide) tail)))

/-- No route before the mount matches a path below it, and none behind it does unless the mount
does. -/
theorem selectRoute_mounted {rest : Str} {route : AppRoute}
    (selected : selectRoute method (lit "/mcp/" ++ rest) = some route) : route.kind = .mount := by
  have before : (docsRoutes ++ apiRoutes).filter
      (fun route => route.pattern.accepts (lit "/mcp/" ++ rest)) = [] := rfl
  have redirect : (textRoute ["GET", "POST", "DELETE"] "/mcp").pattern.accepts
      (lit "/mcp/" ++ rest) = false := rfl
  have root : (textRoute ["GET"] "/").pattern.accepts (lit "/mcp/" ++ rest) = false := rfl
  unfold selectRoute at selected
  rw [routes, List.filter_append, before, List.nil_append] at selected
  cases mounted : mcpMount.pattern.accepts (lit "/mcp/" ++ rest) with
  | true =>
      have serves : mcpMount.serves method = true := rfl
      obtain rfl : mcpMount = route := by simpa [mounted, serves] using selected
      rfl
  | false =>
      have spa : spaRoute.pattern.accepts (lit "/mcp/" ++ rest) = false :=
        Bool.eq_false_iff.mpr fun accepted => by simp [mount_accepts accepted] at mounted
      simp [mounted, spaRoutes, redirect, root, spa] at selected

theorem docs_candidates : ∀ path ∈ docsLike, ∃ doc ∈ docsRoutes,
    routes.filter (fun route => route.pattern.accepts path) = [doc, spaRoute] := by
  decide +kernel

theorem docs_methods : ∀ doc ∈ docsRoutes,
    doc.kind = .docs ∧ doc.methods = [lit "GET", lit "HEAD"] := by
  decide +kernel

theorem selectRoute_docs {route : AppRoute} (docs : path ∈ docsLike)
    (selected : selectRoute method path = some route) : route.kind = .docs := by
  obtain ⟨doc, member, candidates⟩ := docs_candidates path docs
  obtain ⟨kind, methods⟩ := docs_methods doc member
  suffices same : doc = route from same ▸ kind
  unfold selectRoute at selected
  rw [candidates] at selected
  cases serves : doc.serves method with
  | true => simpa [List.find?_cons, serves] using selected
  | false =>
      -- a method that the documentation does not serve is not served by the catch-all either
      have spa : spaRoute.serves method = false := by
        unfold AppRoute.serves at serves ⊢
        rw [kind, methods] at serves
        simp [spaRoute] at serves ⊢
        exact serves.1
      simpa [List.find?_cons, serves, spa] using selected

theorem mount_docs_patterns : ∀ route ∈ routes,
    (route.kind = .mount → route.pattern = [.literal (lit "/mcp/"), .rest]) ∧
      (route.kind = .docs → ∃ page ∈ docsPaths, route.pattern = [.literal page]) := by
  decide +kernel

/-- A FastAPI route comes into the scope for every path that some route matches, but for those
below the mount and those of the documentation. -/
theorem routedTemplate_isSome_iff : (routedTemplate method path).isSome = true ↔
    Routable path ∧ startsWith path (lit "/mcp/") = false ∧ path ∉ docsLike := by
  constructor
  · intro routed
    obtain ⟨template, routed⟩ := Option.isSome_iff_exists.mp routed
    obtain ⟨route, member, api, -, selected⟩ := routedTemplate_some routed
    refine ⟨routable_iff.mpr ⟨route, selectRoute_mem selected⟩, ?_, fun docs => ?_⟩
    · refine Bool.eq_false_iff.mpr fun mounted => ?_
      obtain ⟨rest, rfl⟩ := startsWith_iff.mp mounted
      simp [selectRoute_mounted selected] at api
    · simp [selectRoute_docs docs selected] at api
  · rintro ⟨routable, unmounted, undocumented⟩
    obtain ⟨candidate, member, accepted⟩ := routable_iff.mp routable
    have some_ : (selectRoute method path).isSome = true := by
      have nonempty : candidate ∈ routes.filter fun route => route.pattern.accepts path :=
        List.mem_filter.mpr ⟨member, accepted⟩
      unfold selectRoute
      cases filtered : routes.filter fun route => route.pattern.accepts path with
      | nil => simp [filtered] at nonempty
      | cons first others => simp
    obtain ⟨route, selected⟩ := Option.isSome_iff_exists.mp some_
    obtain ⟨inRoutes, accepts⟩ := selectRoute_mem selected
    obtain ⟨mount, docs⟩ := mount_docs_patterns route inRoutes
    unfold routedTemplate
    rw [selected]
    cases kind : route.kind with
    | api => simp [kind]
    | mount =>
        rw [mount kind] at accepts
        obtain ⟨rest, rfl, -⟩ := PathPattern.accepts_literal_iff.mp accepts
        have mounted := startsWith_iff.mpr (List.prefix_append (lit "/mcp/") rest)
        rw [mounted] at unmounted
        cases unmounted
    | docs =>
        obtain ⟨page, inPages, pattern⟩ := docs kind
        rw [pattern] at accepts
        refine absurd ?_ undocumented
        obtain rfl | rfl := PathPattern.accepts_text_iff.mp accepts
        · exact List.mem_append_left _ inPages
        · exact List.mem_append_right _ (List.mem_map_of_mem inPages)

end Routing

section Law

variable {environ : Config.Environ} {request : HttpRequest} {label : Str}

/-- The templates of the FastAPI routes, the paths of the documentation, and the mount. -/
def pathLabels : List Str :=
  (routes.filter fun route => route.kind = .api).map AppRoute.template ++ docsPaths ++
    [lit "/mcp", lit "/mcp/"]

/-- A guard stamps its template, or a FastAPI route matches and neither the mount nor the
documentation comes before it, or the path is itself one of the fixed labels. -/
def HttpRequest.Labelled (request : HttpRequest) : Prop :=
  (guardTemplate request.method request.url).isSome = true ∨
    (Routable (canonicalPath request.path) ∧
      startsWith (canonicalPath request.path) (lit "/mcp/") = false ∧
      canonicalPath request.path ∉ docsLike) ∨
    request.url ∈ pathLabels

theorem guardTemplate_known {method url template : Str}
    (stamped : guardTemplate method url = some template) : template ∈ pathLabels := by
  have upload : uploadTemplate ∈ pathLabels := by decide +kernel
  have mcp : lit "/mcp" ∈ pathLabels := by decide +kernel
  unfold guardTemplate at stamped
  split at stamped
  · exact Option.some.inj stamped ▸ upload
  · split at stamped
    · exact Option.some.inj stamped ▸ mcp
    · cases stamped

theorem routedTemplate_known {method path template : Str}
    (routed : routedTemplate method path = some template) : template ∈ pathLabels := by
  obtain ⟨route, member, api, rfl, -⟩ := routedTemplate_some routed
  refine List.mem_append_left _ (List.mem_append_left _ (List.mem_map_of_mem ?_))
  exact List.mem_filter.mpr ⟨member, by simpa using api⟩

theorem mcp_refused_stamps {config : Dict} {method url : Str} {contentLength : Option Str}
    {status : Nat} {detail : Str}
    (refused : mcpBodyGuard environ config method url contentLength =
      .ok (.refused status detail)) : (guardTemplate method url).isSome = true := by
  unfold mcpBodyGuard at refused
  split at refused
  · next guarded =>
      have under : underMcp url = true := by simpa [underMcp] using guarded.2
      unfold guardTemplate
      split
      · rfl
      · rw [if_pos ⟨guarded.1, under⟩]
        rfl
  · cases refused

theorem upload_refused_stamps {config : Dict} {session : Bool} {method url : Str}
    {contentLength : Option Str} {status : Nat} {detail : Str}
    (refused : uploadBodyGuard environ config session method url contentLength =
      .ok (.refused status detail)) : (guardTemplate method url).isSome = true := by
  unfold uploadBodyGuard at refused
  split at refused
  · next guarded =>
      unfold guardTemplate
      rw [if_pos guarded]
      rfl
  · cases refused

/-- A recorded label is one of the fixed ones exactly when its request is labelled. -/
theorem pathTemplate_known_iff (recorded : request.pathTemplate environ = some label) :
    label ∈ pathLabels ↔ request.Labelled := by
  unfold HttpRequest.pathTemplate at recorded
  split at recorded
  · cases recorded
  split at recorded
  · cases recorded
  · next refused =>
      obtain rfl := Option.some.inj recorded
      exact iff_of_true (by decide +kernel) (.inl (mcp_refused_stamps refused))
  split at recorded
  · cases recorded
  · next refused =>
      obtain rfl := Option.some.inj recorded
      exact iff_of_true (by decide +kernel) (.inl (upload_refused_stamps refused))
  split at recorded
  · cases recorded
  unfold HttpRequest.Labelled
  rw [← @routedTemplate_isSome_iff request.method]
  split at recorded
  · next template routed =>
      obtain rfl := Option.some.inj recorded
      exact iff_of_true (routedTemplate_known routed) (.inr (.inl (by rw [routed]; rfl)))
  · next unrouted =>
      obtain rfl := Option.some.inj recorded
      cases stamped : guardTemplate request.method request.url with
      | some template => exact iff_of_true (guardTemplate_known stamped) (.inl rfl)
      | none => simp [unrouted]

/-- In every run, the labels stay among the fixed ones exactly when each request that is recorded
is labelled. -/
theorem recordedLabels_known_iff (environ : Config.Environ)
    (requests : List HttpRequest) :
    (∀ label ∈ recordedLabels environ requests, label ∈ pathLabels) ↔
      ∀ request ∈ requests, (request.pathTemplate environ).isSome = true →
        request.Labelled := by
  unfold recordedLabels
  constructor
  · intro known request member recorded
    obtain ⟨label, recorded⟩ := Option.isSome_iff_exists.mp recorded
    exact (pathTemplate_known_iff recorded).mp
      (known label (List.mem_filterMap.mpr ⟨request, member, recorded⟩))
  · intro labelled label member
    obtain ⟨request, inRun, recorded⟩ := List.mem_filterMap.mp member
    exact (pathTemplate_known_iff recorded).mpr
      (labelled request inRun (Option.isSome_iff_exists.mpr ⟨label, recorded⟩))

/-- A `GET` below the mount, without any credentials. -/
def junkRequest (count : Nat) : HttpRequest where
  method := lit "GET"
  path := lit "/mcp/" ++ List.replicate count 'a'
  urlPath := id
  contentLength := none
  hasValidSession := false
  config := []
  answered := true

theorem junkRequest_label (count : Nat) :
    (junkRequest count).pathTemplate ⟨.ascii, fun _ => none⟩ =
      some (lit "/mcp/" ++ List.replicate count 'a') := by
  have mounted : startsWith (lit "/mcp/" ++ List.replicate count 'a') (lit "/mcp/") = true :=
    startsWith_iff.mpr (List.prefix_append _ _)
  have unrouted : routedTemplate (lit "GET") (lit "/mcp/" ++ List.replicate count 'a') = none := by
    refine Option.not_isSome_iff_eq_none.mp fun routed => ?_
    simp [(routedTemplate_isSome_iff.mp routed).2.1] at mounted
  have canonical : canonicalPath (lit "/mcp/" ++ List.replicate count 'a') =
      lit "/mcp/" ++ List.replicate count 'a' := if_neg (by simp [lit])
  have other : lit "GET" ≠ lit "POST" := by decide
  have unguarded : ¬ guardsUpload (lit "GET") (lit "/mcp/" ++ List.replicate count 'a') :=
    fun guarded => other guarded.1
  simp only [HttpRequest.pathTemplate, HttpRequest.switchedOff, HttpRequest.url, junkRequest,
    mcpBodyGuard, uploadBodyGuard, guardTemplate, canonical, unrouted, other, unguarded, id,
    false_and, if_false]
  rfl

/-- No finite set holds the labels of all runs. -/
theorem mount_labels_unbounded :
    ¬ ∃ labels : List Str, ∀ (requests : List HttpRequest),
      ∀ label ∈ recordedLabels ⟨.ascii, fun _ => none⟩ requests, label ∈ labels := by
  rintro ⟨labels, bounded⟩
  have member := bounded [junkRequest (labels.map List.length).sum] _
    (List.mem_filterMap.mpr ⟨_, List.mem_singleton_self _, junkRequest_label _⟩)
  have short := List.single_le_sum (by simp) _ (List.mem_map_of_mem (f := List.length) member)
  rw [List.length_append, List.length_replicate] at short
  have five : (lit "/mcp/").length = 5 := by decide
  omega

end Law

end S3Manager.Web
