import EmbeddingServer.Lib.Bytes
import EmbeddingServer.Server.GrpcAuth

/-!
# What the origin layer tells a browser

`origin_layer` with the headers it sets. `router` is the same layer without them
(`origin_layer_outcome`). A browser lets a page read a response, or send a request that is not
simple, by these headers alone, so they must name an allowed origin and nothing else, and the
answer to a preflight has to agree with the routes behind the layer (`route_method_registered`).
-/

namespace EmbeddingServer

/-- A response: how the request ended, and the headers. -/
structure HttpResponse where
  outcome : HttpOutcome
  headers : HeaderMap
  deriving DecidableEq, Repr

/-- `HeaderMap::insert`. -/
def HeaderMap.insert (headers : HeaderMap) (name : String) (value : List UInt8) : HeaderMap :=
  (headers.filter fun header => header.1 ≠ name) ++ [(name, value)]

/-- `OriginPolicy::response_origin`. -/
def AppState.responseOrigin (state : AppState) (origin : Option (List UInt8)) :
    Option (List UInt8) :=
  origin.filter fun value => state.originAllowed (some value)

/-- `apply_origin`; `HeaderValue::from_str` accepts what `to_str` returns. -/
def applyOrigin (headers : HeaderMap) (origin : Option (List UInt8)) : HeaderMap :=
  match origin.bind headerText with
  | none => headers
  | some origin =>
      (headers.insert "access-control-allow-origin" origin).insert "vary" (literalBytes "Origin")

/-- `apply_preflight`. -/
def applyPreflight (headers : HeaderMap) (origin : List UInt8) (method : Method) : HeaderMap :=
  ((applyOrigin headers (some origin)).insert "access-control-allow-methods"
      (literalBytes method.asStr)).insert "access-control-allow-headers"
    (literalBytes "Authorization, Content-Type")

/-- The headers of `error_response`. -/
def errorHeaders : HeaderMap :=
  [("content-type", literalBytes "application/json")]

/-- `error_response` with the status of a refused origin. -/
def refusedOrigin : HttpResponse where
  outcome := .forbidden
  headers := errorHeaders

/-- The branch of `origin_layer` for `OPTIONS`. -/
def answerPreflight (state : AppState) (request : HttpRequest)
    (responseOrigin : Option (List UInt8)) : HttpResponse :=
  match responseOrigin with
  | none => refusedOrigin
  | some origin =>
      match routeMethod request.path state.adminApiEnabled with
      | none => ⟨.notFound, []⟩
      | some expected =>
          match (singleHeader request.headers "access-control-request-method").bind headerText with
          | none => refusedOrigin
          | some requested =>
              if requested ≠ literalBytes expected.asStr ||
                  !preflightHeadersAllowed request.headers then refusedOrigin
              else ⟨.noContent, applyPreflight [] origin expected⟩

/-- `origin_layer`. -/
def originLayer (state : AppState) (next : HttpRequest → HttpResponse) (request : HttpRequest) :
    HttpResponse :=
  match request.headers.getAll "origin" with
  | _ :: _ :: _ => refusedOrigin
  | headers =>
      let header := headers.head?
      let origin := header.bind headerText
      if header.isSome && origin.isNone then refusedOrigin
      else if !state.originAllowed origin then refusedOrigin
      else
        let responseOrigin := state.responseOrigin origin
        if request.method = .options then answerPreflight state request responseOrigin
        else
          let response := next request
          { response with headers := applyOrigin response.headers responseOrigin }

/-! ## The origin of a request -/

/-- The request comes from the origin: one `Origin` header, and its text is allowed. -/
def FromOrigin (state : AppState) (request : HttpRequest) (origin : List UInt8) : Prop :=
  request.headers.getAll "origin" = [origin] ∧ isHeaderText origin = true ∧
    ∃ allowed ∈ state.allowedOrigins, allowed.toUTF8.toList = origin

@[simp]
theorem HeaderMap.get_all_insert_self (headers : HeaderMap) (name : String) (value : List UInt8) :
    (headers.insert name value).getAll name = [value] := by
  unfold HeaderMap.insert HeaderMap.getAll
  rw [List.filter_append, List.filter_filter]
  have hnone : (headers.filter fun header => header.1 = name && header.1 ≠ name) = [] := by
    rw [List.filter_eq_nil_iff]
    intro header _ hboth
    simp at hboth
  rw [hnone]
  simp

theorem HeaderMap.get_all_insert_of_ne (headers : HeaderMap) {name other : String}
    (value : List UInt8) (h : other ≠ name) :
    (headers.insert name value).getAll other = headers.getAll other := by
  unfold HeaderMap.insert HeaderMap.getAll
  rw [List.filter_append, List.filter_filter]
  have hlast : ([(name, value)].filter fun header => header.1 = other) = [] := by
    simp [Ne.symm h]
  have hsame : (headers.filter fun header => header.1 = other && header.1 ≠ name) =
      headers.filter fun header => header.1 = other := by
    apply List.filter_congr
    intro header _
    by_cases heq : header.1 = other
    · simp [heq, h]
    · simp [heq]
  rw [hlast, hsame, List.append_nil]

theorem AppState.origin_allowed_some {state : AppState} {value : List UInt8} :
    state.originAllowed (some value) = true ↔
      ∃ allowed ∈ state.allowedOrigins, allowed.toUTF8.toList = value := by
  unfold AppState.originAllowed
  rw [Option.all_some, List.any_eq_true]
  simp only [constant_time_eq_iff]

section

variable {state : AppState} {request : HttpRequest} {next : HttpRequest → HttpResponse}
  {origin : List UInt8}

theorem FromOrigin.header_text (h : FromOrigin state request origin) :
    EmbeddingServer.headerText origin = some origin :=
  header_text_eq_some.mpr ⟨h.2.1, rfl⟩

theorem FromOrigin.origin_allowed (h : FromOrigin state request origin) :
    state.originAllowed (some origin) = true :=
  AppState.origin_allowed_some.mpr h.2.2

/-- A request from an allowed origin. -/
theorem FromOrigin.origin_layer (h : FromOrigin state request origin) :
    EmbeddingServer.originLayer state next request =
      if request.method = .options then answerPreflight state request (some origin)
      else
        { next request with headers := applyOrigin (next request).headers (some origin) } := by
  have hresponse : state.responseOrigin (some origin) = some origin := by
    rw [AppState.responseOrigin, Option.filter_some, if_pos h.origin_allowed]
  unfold EmbeddingServer.originLayer
  rw [h.1]
  dsimp only
  rw [List.head?_cons, Option.bind_some, h.header_text, h.origin_allowed, hresponse]
  rfl

theorem FromOrigin.router (h : FromOrigin state request origin) :
    EmbeddingServer.router state request =
      if request.method = .options then corsPreflight state request (some origin)
      else dispatch state request := by
  unfold EmbeddingServer.router
  rw [h.1]
  dsimp only
  rw [List.head?_cons, Option.bind_some, h.header_text, h.origin_allowed]
  rfl

/-- A request without an `Origin` header passes, unless it is a preflight. -/
theorem origin_layer_missing (h : request.headers.getAll "origin" = []) :
    originLayer state next request =
      if request.method = .options then refusedOrigin else next request := by
  unfold originLayer
  rw [h]
  rfl

theorem router_missing (h : request.headers.getAll "origin" = []) :
    router state request =
      if request.method = .options then .forbidden else dispatch state request := by
  unfold router
  rw [h]
  rfl

/-- Every other request is refused, whatever is behind the layer. -/
theorem origin_layer_refused (hsome : request.headers.getAll "origin" ≠ [])
    (h : ∀ origin, ¬ FromOrigin state request origin) :
    originLayer state next request = refusedOrigin ∧ router state request = .forbidden := by
  unfold originLayer router
  match hheaders : request.headers.getAll "origin" with
  | [] => exact absurd hheaders hsome
  | _ :: _ :: _ => exact ⟨rfl, rfl⟩
  | [value] =>
      dsimp only
      rw [List.head?_cons, Option.bind_some]
      cases htext : headerText value with
      | none => exact ⟨rfl, rfl⟩
      | some text =>
          obtain ⟨hvisible, rfl⟩ := header_text_eq_some.mp htext
          have hforeign : state.originAllowed (some value) = false := by
            rw [← Bool.not_eq_true, AppState.origin_allowed_some]
            exact fun hallowed => h value ⟨hheaders, hvisible, hallowed⟩
          rw [hforeign]
          exact ⟨rfl, rfl⟩

/-- A preflight is answered with the outcome of the router. -/
theorem answer_preflight_outcome (responseOrigin : Option (List UInt8)) :
    (answerPreflight state request responseOrigin).outcome =
      corsPreflight state request responseOrigin := by
  unfold answerPreflight corsPreflight
  cases responseOrigin with
  | none => rfl
  | some origin =>
      cases routeMethod request.path state.adminApiEnabled with
      | none => rfl
      | some expected =>
          cases (singleHeader request.headers "access-control-request-method").bind headerText with
          | none => rfl
          | some requested =>
              dsimp only
              split <;> rfl

/-- The router is the origin layer before the routes, less the headers. -/
theorem origin_layer_outcome (hnext : ∀ request, (next request).outcome = dispatch state request) :
    (originLayer state next request).outcome = router state request := by
  by_cases hmissing : request.headers.getAll "origin" = []
  · rw [origin_layer_missing hmissing, router_missing hmissing]
    split
    · rfl
    · exact hnext request
  · by_cases hfrom : ∃ origin, FromOrigin state request origin
    · obtain ⟨origin, h⟩ := hfrom
      rw [h.origin_layer, h.router]
      split
      · exact answer_preflight_outcome _
      · exact hnext request
    · obtain ⟨hlayer, hrouter⟩ := @origin_layer_refused _ _ next hmissing
        fun origin h => hfrom ⟨origin, h⟩
      rw [hlayer, hrouter]
      rfl

/-! ## The headers of a response -/

/-- The response names the origin to the browser, and says that it depends on it. -/
def Grants (response : HttpResponse) (origin : List UInt8) : Prop :=
  response.headers.getAll "access-control-allow-origin" = [origin] ∧
    response.headers.getAll "vary" = [literalBytes "Origin"]

/-- The response does not name an origin. -/
def GrantsNothing (response : HttpResponse) : Prop :=
  response.headers.getAll "access-control-allow-origin" = []

theorem refused_origin_grants_nothing : GrantsNothing refusedOrigin :=
  rfl

theorem apply_origin_grants {headers : HeaderMap} (outcome : HttpOutcome)
    (h : FromOrigin state request origin) :
    Grants ⟨outcome, applyOrigin headers (some origin)⟩ origin := by
  unfold Grants applyOrigin
  rw [Option.bind_some, h.header_text]
  dsimp only
  rw [HeaderMap.get_all_insert_of_ne _ _ (by decide), HeaderMap.get_all_insert_self,
    HeaderMap.get_all_insert_self]
  exact ⟨rfl, rfl⟩

theorem apply_preflight_grants (outcome : HttpOutcome) (method : Method)
    (h : FromOrigin state request origin) :
    Grants ⟨outcome, applyPreflight [] origin method⟩ origin := by
  have hgrants : Grants ⟨outcome, applyOrigin [] (some origin)⟩ origin :=
    apply_origin_grants outcome h
  unfold Grants applyPreflight at *
  dsimp only at *
  rw [HeaderMap.get_all_insert_of_ne _ _ (by decide),
    HeaderMap.get_all_insert_of_ne _ _ (by decide),
    HeaderMap.get_all_insert_of_ne _ _ (by decide), HeaderMap.get_all_insert_of_ne _ _ (by decide)]
  exact hgrants

/-- A preflight either succeeds and grants the origin, or it does not and grants nothing. -/
theorem answer_preflight_grants (h : FromOrigin state request origin) :
    ((answerPreflight state request (some origin)).outcome ≠ .noContent ∧
        GrantsNothing (answerPreflight state request (some origin))) ∨
      ((answerPreflight state request (some origin)).outcome = .noContent ∧
        Grants (answerPreflight state request (some origin)) origin) := by
  have hrefused : refusedOrigin.outcome ≠ .noContent ∧ GrantsNothing refusedOrigin :=
    ⟨HttpOutcome.noConfusion, refused_origin_grants_nothing⟩
  unfold answerPreflight
  dsimp only
  split
  · exact .inl ⟨HttpOutcome.noConfusion, rfl⟩
  · rename_i method _
    split
    · exact .inl hrefused
    · split
      · exact .inl hrefused
      · exact .inr ⟨rfl, apply_preflight_grants .noContent method h⟩

/-! ## Preflights and routes -/

/-- The table of the preflights and the routes have the same paths and methods. -/
theorem route_method_registered (path : String) (adminEnabled : Bool) :
    routeMethod path adminEnabled = (registered path adminEnabled).map Prod.fst := by
  unfold registered
  split
  all_goals first
    | cases adminEnabled <;> rfl
    | skip
  grind [routeMethod]

/-- Routes are registered for `GET` and `POST`. -/
theorem registered_method {path : String} {adminEnabled : Bool} {method : Method}
    {handler : Handler} (h : registered path adminEnabled = some (method, handler)) :
    method = .get ∨ method = .post := by
  unfold registered at h
  split at h
  all_goals first
    | (cases h; exact .inl rfl)
    | (cases h; exact .inr rfl)
    | cases h
    | (split at h <;> cases h; exact .inr rfl)

/-- A single header with a text. -/
theorem single_header_text_iff {headers : HeaderMap} {name : String} {text : List UInt8}
    (htext : isHeaderText text = true) :
    (singleHeader headers name).bind headerText = some text ↔ headers.getAll name = [text] := by
  unfold singleHeader
  constructor
  · intro h
    split at h
    · rename_i value hvalue
      rw [Option.bind_some, header_text_eq_some] at h
      rw [hvalue, h.2]
    · cases h
  · intro h
    rw [h]
    exact header_text_eq_some.mpr ⟨htext, rfl⟩

/-- A preflight succeeds exactly for a route behind the layer: from an allowed origin, for the
method of the route, and with no header names but the two that may be sent. -/
theorem preflight_iff :
    corsPreflight state request (some origin) = .noContent ↔
      ∃ method handler, registered request.path state.adminApiEnabled = some (method, handler) ∧
        request.headers.getAll "access-control-request-method" = [literalBytes method.asStr] ∧
        preflightHeadersAllowed request.headers = true := by
  unfold corsPreflight
  dsimp only
  rw [route_method_registered]
  cases hregistered : registered request.path state.adminApiEnabled with
  | none =>
      rw [Option.map_none]
      constructor
      · intro hcontent
        cases hcontent
      · intro hroute
        obtain ⟨method, handler, hnone, _⟩ := hroute
        cases hnone
  | some route =>
      obtain ⟨method, handler⟩ := route
      have htext : isHeaderText (literalBytes method.asStr) = true := by
        rcases registered_method hregistered with rfl | rfl <;> decide
      rw [Option.map_some]
      dsimp only
      constructor
      · intro hcontent
        split at hcontent
        · cases hcontent
        · rename_i requested hrequested
          split at hcontent
          · cases hcontent
          · rename_i hmatch
            rw [Bool.or_eq_true, not_or, decide_eq_true_eq, not_not, Bool.not_eq_true',
              Bool.not_eq_false] at hmatch
            rw [hmatch.1, single_header_text_iff htext] at hrequested
            exact ⟨method, handler, rfl, hrequested, hmatch.2⟩
      · intro hroute
        obtain ⟨method', handler', hsame, hrequested, hallowed⟩ := hroute
        rw [Option.some.injEq, Prod.mk.injEq] at hsame
        obtain ⟨rfl, rfl⟩ := hsame
        rw [(single_header_text_iff htext).mpr hrequested]
        simp [hallowed]

/-- A request that a preflight has announced is not turned away by the layer or the routes. -/
theorem announced_routed {actual : HttpRequest} {method : Method} {handler : Handler}
    (hregistered : registered request.path state.adminApiEnabled = some (method, handler))
    (hpath : actual.path = request.path) (hmethod : actual.method = method)
    (hactual : FromOrigin state actual origin) :
    router state actual = .reached handler ∨ router state actual = .unauthorized := by
  have hnot : actual.method ≠ .options := by
    rw [hmethod]
    rcases registered_method hregistered with rfl | rfl <;> exact Method.noConfusion
  have hmatches : methodMatches method actual.method = true := by
    simp [methodMatches, hmethod]
  rw [hactual.router, if_neg hnot]
  unfold dispatch
  rw [hpath, hregistered]
  dsimp only
  rw [hmatches]
  cases authorized state actual.headers handler <;> simp

/-- Cross-origin access from end to end, for what lies behind the layer as long as it does not
set the header itself. A response names an origin only if the request came from it and it is
allowed, and then no other; requests that name another origin are refused before anything behind
the layer runs. A preflight succeeds exactly for the routes behind the layer, whatever credentials
are missing, and the request that it announces is refused for want of credentials at most. -/
theorem cross_origin_access (state : AppState) (next : HttpRequest → HttpResponse)
    (hnext : ∀ request, GrantsNothing (next request)) (request : HttpRequest) :
    (GrantsNothing (originLayer state next request) ∨
      ∃ origin, FromOrigin state request origin ∧
        Grants (originLayer state next request) origin) ∧
    (request.headers.getAll "origin" ≠ [] → (∀ origin, ¬ FromOrigin state request origin) →
      ∀ next, originLayer state next request = refusedOrigin) ∧
    (∀ origin, FromOrigin state request origin →
      (request.method = .options → (originLayer state next request).outcome = .noContent) →
      Grants (originLayer state next request) origin) ∧
    (request.method = .options → ((originLayer state next request).outcome = .noContent ↔
      ∃ origin method handler, FromOrigin state request origin ∧
        registered request.path state.adminApiEnabled = some (method, handler) ∧
        request.headers.getAll "access-control-request-method" = [literalBytes method.asStr] ∧
        preflightHeadersAllowed request.headers = true)) ∧
    (∀ actual origin method handler, actual.path = request.path → actual.method = method →
      registered request.path state.adminApiEnabled = some (method, handler) →
      FromOrigin state actual origin →
        router state actual = .reached handler ∨ router state actual = .unauthorized) := by
  refine ⟨?_, ?_, ?_, ?_, ?_⟩
  · by_cases hmissing : request.headers.getAll "origin" = []
    · left
      rw [origin_layer_missing hmissing]
      split
      · exact refused_origin_grants_nothing
      · exact hnext request
    · by_cases hfrom : ∃ origin, FromOrigin state request origin
      · obtain ⟨origin, h⟩ := hfrom
        rw [h.origin_layer]
        split
        · rcases answer_preflight_grants h with ⟨_, hnothing⟩ | ⟨_, hgrants⟩
          · exact .inl hnothing
          · exact .inr ⟨origin, h, hgrants⟩
        · exact .inr ⟨origin, h, apply_origin_grants _ h⟩
      -- A header that no allowed origin can have sent.
      · left
        rw [(origin_layer_refused hmissing fun origin h => hfrom ⟨origin, h⟩).1]
        exact refused_origin_grants_nothing
  · intro hsome hforeign next
    exact (origin_layer_refused hsome hforeign).1
  · intro origin h hanswered
    rw [h.origin_layer] at hanswered ⊢
    split
    · rename_i hoptions
      rw [if_pos hoptions] at hanswered
      rcases answer_preflight_grants h with ⟨hother, _⟩ | ⟨_, hgrants⟩
      -- A preflight that is not answered is excluded by assumption.
      · exact absurd (hanswered hoptions) hother
      · exact hgrants
    · exact apply_origin_grants _ h
  · intro hoptions
    constructor
    · intro hcontent
      by_cases hmissing : request.headers.getAll "origin" = []
      · rw [origin_layer_missing hmissing, if_pos hoptions] at hcontent
        cases hcontent
      · by_cases hfrom : ∃ origin, FromOrigin state request origin
        · obtain ⟨origin, h⟩ := hfrom
          rw [h.origin_layer, if_pos hoptions, answer_preflight_outcome, preflight_iff] at hcontent
          obtain ⟨method, handler, hroute⟩ := hcontent
          exact ⟨origin, method, handler, h, hroute⟩
        · rw [(origin_layer_refused hmissing fun origin h => hfrom ⟨origin, h⟩).1] at hcontent
          cases hcontent
    · intro hroute
      obtain ⟨origin, method, handler, h, hroute⟩ := hroute
      rw [h.origin_layer, if_pos hoptions, answer_preflight_outcome, preflight_iff]
      exact ⟨method, handler, hroute⟩
  · intro actual origin method handler hpath hmethod hregistered hactual
    exact announced_routed hregistered hpath hmethod hactual

end

/-- A page that may call the server. -/
def pageOrigin : String := "https://page.example"

/-- A server for the page, without credentials. -/
def pageState : AppState where
  publicCredential := none
  adminCredential := none
  allowedOrigins := [pageOrigin]
  adminApiEnabled := false

/-- The preflight of the page for an embedding. -/
def pagePreflight : HttpRequest where
  method := .options
  path := "/v1/embed"
  headers := [("origin", literalBytes pageOrigin),
    ("access-control-request-method", literalBytes "POST"),
    ("access-control-request-headers", literalBytes "Content-Type")]

/-- The page may send its request. -/
theorem cross_origin_access_preflight :
    (originLayer pageState (fun request => ⟨dispatch pageState request, []⟩)
      pagePreflight).outcome = .noContent := by
  have haccess := cross_origin_access pageState (fun request => ⟨dispatch pageState request, []⟩)
    (fun _ => rfl) pagePreflight
  have hbytes : pageOrigin.toUTF8.toList = literalBytes pageOrigin := by
    rw [Bytes.to_utf8_to_list]
    rfl
  have hfrom : FromOrigin pageState pagePreflight (literalBytes pageOrigin) :=
    ⟨by decide, by decide, pageOrigin, List.mem_singleton_self _, hbytes⟩
  exact (haccess.2.2.2.1 rfl).mpr
    ⟨_, .post, .nativeEmbeddings, hfrom, by decide, by decide, by decide⟩

end EmbeddingServer
