import Arc.Http.OperationRoutes
import Arc.Http.RequestPath

/-!
# The Node handler

The handler compares the path of a request with the path the URL parser reads, strips the base,
and then lets an endpoint answer, or a file, or the shell of a single-page application. Parsing
URLs and reading files is left to the platform, and so is what an endpoint answers; everything
that decides between them is not.
-/

namespace Arc.Http

/-- A parsed URL. Its path is spelled in ASCII: the parser escapes what is not. -/
structure ParsedUrl where
  origin : List Char
  pathname : List Char
  search : List Char
  ascii : ∀ char ∈ pathname, char.toNat < 128

/-- What `serveFile` does: it sends the file, finds none, or throws. -/
inductive FileAnswer
  | sent
  | absent
  | threw

/-- The platform: the URL parser, resolving against the origin of the handler, and the files
below the static root; `fallback` tells the shell from a file that was asked for. -/
structure NodePlatform where
  parseUrl : List Char → Option ParsedUrl
  serveFile : List (List Char) → Bool → FileAnswer

/-- The options of a listener; `root` tells that static files are configured. -/
structure ArcNodeOptions where
  pathBase : List Char := []
  root : Bool := false
  wellKnown : List (List Char) := []
  fallback : Option (List Char) := none

/-- What the handler reads of the server. -/
structure ArcEndpoints where
  routePrefix : List Char := "api".toList
  endpoints : List (List Char)

structure NodeRequest where
  url : List Char
  method : String
  accept : Option (List Char) := none

/-- How a request ends. -/
inductive Answered
  | notFound
  | dispatched (path search : List Char)
  | file (segments : List (List Char))
  | shell
  | failed

def origin : List Char := "http://arc.invalid".toList

def toLower (text : List Char) : List Char := text.map Char.toLower

/-- Reserve the API and metadata namespaces, in any letter case. -/
def reservedPath (path routePrefix : List Char) : Bool :=
  let lower := toLower path
  let api := '/' :: toLower routePrefix
  lower == api || (api ++ ['/']).isPrefixOf lower || lower == "/.cratis".toList ||
    "/.cratis/".toList.isPrefixOf lower

/-- Whether `extname` is not empty. -/
def hasExtension (path : List Char) : Bool :=
  match ((path.splitOn '/').filter (!·.isEmpty)).getLast? with
  | none => false
  | some base => base != ['.', '.'] && base.tail.contains '.'

/-- Only an extensionless HTML navigation may receive the shell. -/
def isNavigation (request : NodeRequest) (path : List Char) : Bool :=
  !hasExtension path && request.accept.any fun accept =>
    (accept.splitOn ',').any fun part =>
      "text/html".toList.isPrefixOf (toLower (part.dropWhile isWhiteSpace))

/-- Serve a file for safe segments, or the shell for a navigation. -/
def serveStatic (platform : NodePlatform) (options : ArcNodeOptions) (request : NodeRequest)
    (path : List Char) (segments : List (List Char)) : Answered :=
  if (request.method == "GET" || request.method == "HEAD") && options.root then
    match platform.serveFile segments false with
    | .threw => .failed
    | .sent => .file segments
    | .absent =>
        match options.fallback with
        | none => .notFound
        | some fallback =>
            if isNavigation request path then
              match platform.serveFile (fallback.splitOn '/') true with
              | .threw => .failed
              | .sent => .shell
              | .absent => .notFound
            else .notFound
  else .notFound

/-- The routing of a request once its path is stripped of the base. -/
def routeRequest (server : ArcEndpoints) (platform : NodePlatform) (options : ArcNodeOptions)
    (request : NodeRequest) (path search : List Char) : Answered :=
  let segments := safeSegments path options.wellKnown
  if segments.isNone && !"/.cratis".toList.isPrefixOf (toLower path) then .notFound
  else
    match server.endpoints.find? (fun route => toLower route == toLower path) with
    | some endpoint => if endpoint ≠ path then .notFound else .dispatched path search
    | none =>
        match segments with
        | none => .notFound
        | some segments =>
            if reservedPath path server.routePrefix then .notFound
            else serveStatic platform options request path segments

def nodeHandler (server : ArcEndpoints) (platform : NodePlatform) (options : ArcNodeOptions)
    (request : NodeRequest) : Answered :=
  let rawPath := (request.url.splitOn '?').headD []
  match platform.parseUrl request.url with
  | none => .notFound
  | some url =>
      if url.origin ≠ origin ∨ url.pathname ≠ rawPath then .notFound
      else
        match stripPathBase rawPath options.pathBase with
        | none => .notFound
        | some path => routeRequest server platform options request path url.search

/-- Whether something public is sent. -/
def Answered.isPublic : Answered → Bool
  | .file _ => true
  | .shell => true
  | _ => false

/-! ### What is public -/

/-- A path is a namespace or lies under it, in any letter case. -/
def Under («namespace» path : List Char) : Prop :=
  toLower path = toLower «namespace» ∨
    (toLower «namespace» ++ ['/']).IsPrefix (toLower path)

theorem reservedPath_of_under {path routePrefix : List Char}
    (h : Under ('/' :: routePrefix) path ∨ Under "/.cratis".toList path) :
    reservedPath path routePrefix = true := by
  have hslash : ∀ text, toLower ('/' :: text) = '/' :: toLower text := fun _ => rfl
  have hcratis : toLower "/.cratis".toList = "/.cratis".toList := by decide
  simp only [reservedPath, Bool.or_eq_true, beq_iff_eq, List.isPrefixOf_iff_prefix]
  rcases h with (h | h) | (h | h)
  · rw [hslash] at h
    exact Or.inl (Or.inl (Or.inl h))
  · rw [hslash] at h
    exact Or.inl (Or.inl (Or.inr h))
  · rw [hcratis] at h
    exact Or.inl (Or.inr h)
  · rw [hcratis] at h
    exact Or.inr h

/-- What the routing sends is not an endpoint, not reserved, and spelled safely. -/
theorem routeRequest_public {server : ArcEndpoints} {platform : NodePlatform}
    {options : ArcNodeOptions} {request : NodeRequest} {path search : List Char}
    (h : (routeRequest server platform options request path search).isPublic = true) :
    (∃ segments, safeSegments path options.wellKnown = some segments) ∧
      (∀ route ∈ server.endpoints, toLower route ≠ toLower path) ∧
      reservedPath path server.routePrefix = false := by
  unfold routeRequest at h
  dsimp only at h
  by_cases hunsafe : ((safeSegments path options.wellKnown).isNone &&
      !"/.cratis".toList.isPrefixOf (toLower path)) = true
  · rw [if_pos hunsafe] at h
    cases h
  rw [if_neg hunsafe] at h
  cases hfind : server.endpoints.find? (fun route => toLower route == toLower path) with
  | some endpoint =>
      rw [hfind] at h
      dsimp only at h
      by_cases hcase : endpoint ≠ path
      · rw [if_pos hcase] at h
        cases h
      · rw [if_neg hcase] at h
        cases h
  | none =>
      rw [hfind] at h
      dsimp only at h
      cases hsegments : safeSegments path options.wellKnown with
      | none =>
          rw [hsegments] at h
          cases h
      | some segments =>
          rw [hsegments] at h
          dsimp only at h
          by_cases hreserved : reservedPath path server.routePrefix = true
          · rw [if_pos hreserved] at h
            cases h
          · refine ⟨⟨segments, rfl⟩, fun route hroute heq => ?_, by simpa using hreserved⟩
            have hnone := List.find?_eq_none.1 hfind route hroute
            rw [heq] at hnone
            exact hnone (beq_self_eq_true _)

theorem nodeHandler_public {server : ArcEndpoints} {platform : NodePlatform}
    {options : ArcNodeOptions} {request : NodeRequest}
    (h : (nodeHandler server platform options request).isPublic = true) :
    ∃ path search, stripPathBase ((request.url.splitOn '?').headD []) options.pathBase =
        some path ∧ (routeRequest server platform options request path search).isPublic = true := by
  unfold nodeHandler at h
  dsimp only at h
  cases hurl : platform.parseUrl request.url with
  | none =>
      rw [hurl] at h
      cases h
  | some url =>
      rw [hurl] at h
      dsimp only at h
      by_cases hspelling : url.origin ≠ origin ∨
          url.pathname ≠ (request.url.splitOn '?').headD []
      · rw [if_pos hspelling] at h
        cases h
      rw [if_neg hspelling] at h
      cases hstrip : stripPathBase ((request.url.splitOn '?').headD []) options.pathBase with
      | none =>
          rw [hstrip] at h
          cases h
      | some path =>
          rw [hstrip] at h
          exact ⟨path, url.search, rfl, h⟩

/-- Static requests have one safe spelling: the segments of a path are found exactly when the
path spells them, without escapes, and below any root they stay inside; and what the handler
sends of its own has such a path, which is no endpoint and in no reserved namespace. -/
theorem static_requests :
    (∀ path wellKnown segments, safeSegments path wellKnown = some segments ↔
      Spells path segments ∧ SafeSegments wellKnown segments) ∧
    (∀ path wellKnown segments, safeSegments path wellKnown = some segments →
      '%' ∉ path ∧ ∀ root, resolvePath root segments = root ++ segments ∧
        contained root (resolvePath root segments) = true) ∧
    (∀ server platform options request,
      (nodeHandler server platform options request).isPublic = true →
      ∃ path segments,
        stripPathBase ((request.url.splitOn '?').headD []) options.pathBase = some path ∧
        safeSegments path options.wellKnown = some segments ∧
        (∀ route ∈ server.endpoints, toLower route ≠ toLower path) ∧
        ¬ Under ('/' :: server.routePrefix) path ∧ ¬ Under "/.cratis".toList path) := by
  refine ⟨fun _ _ _ => safeSegments_eq_some_iff, ?_, ?_⟩
  · intro path wellKnown segments h
    obtain ⟨hspells, hsafe⟩ := safeSegments_eq_some_iff.1 h
    exact ⟨not_mem_percent_of_spells hspells hsafe,
      fun root => ⟨resolvePath_of_safe hsafe root, contained_of_safe hsafe root⟩⟩
  · intro server platform options request h
    obtain ⟨path, search, hstrip, hroute⟩ := nodeHandler_public h
    obtain ⟨⟨segments, hsegments⟩, hendpoints, hreserved⟩ := routeRequest_public hroute
    refine ⟨path, segments, hstrip, hsegments, hendpoints, ?_, ?_⟩
    · intro hunder
      rw [reservedPath_of_under (Or.inl hunder)] at hreserved
      cases hreserved
    · intro hunder
      rw [reservedPath_of_under (Or.inr hunder)] at hreserved
      cases hreserved

end Arc.Http
