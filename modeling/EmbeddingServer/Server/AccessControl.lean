import EmbeddingServer.Server.Credentials

/-!
# Access control of the HTTP adapter

`router` as a function from a request to the handler it reaches. The origin layer comes first,
then the route, then the authentication layer of the route's group. The status of a refusal
is kept; the body of a response is not.

`access_control` says who gets through: without a credential only a configuration that
validation calls safe, otherwise one `Authorization` header with exactly the right bytes.
-/

namespace EmbeddingServer

/-- A request method. -/
inductive Method where
  | get
  | head
  | post
  | options
  | other (name : String)
  deriving DecidableEq, Repr

/-- `Method::as_str`. -/
def Method.asStr : Method → String
  | .get => "GET"
  | .head => "HEAD"
  | .post => "POST"
  | .options => "OPTIONS"
  | .other name => name

/-- The headers of a request in order, under their normalized lower-case names. -/
abbrev HeaderMap := List (String × List UInt8)

/-- `HeaderMap::get_all`. -/
def HeaderMap.getAll (headers : HeaderMap) (name : String) : List (List UInt8) :=
  (headers.filter fun header => header.1 = name).map Prod.snd

/-- What the router reads of a request. -/
structure HttpRequest where
  method : Method
  path : String
  headers : HeaderMap

/-- The handlers of the adapter. -/
inductive Handler where
  | openaiEmbeddings
  | nativeEmbeddings
  | listModels
  | mcp
  | statusPage
  | liveHealth
  | readyHealth
  | openapi
  | metrics
  | adminInstall
  | adminLoad
  | adminUnload
  | adminDelete
  deriving DecidableEq, Repr

/-- The handlers behind `require_public_auth`. -/
def Handler.isPublic : Handler → Bool
  | .openaiEmbeddings => true
  | .nativeEmbeddings => true
  | .listModels => true
  | .mcp => true
  | _ => false

/-- The administrative handlers. -/
def Handler.isAdmin : Handler → Bool
  | .adminInstall => true
  | .adminLoad => true
  | .adminUnload => true
  | .adminDelete => true
  | _ => false

/-- How a request ends: in a handler, in a preflight answer, or in a refusal. -/
inductive HttpOutcome where
  | reached (handler : Handler)
  | noContent
  | forbidden
  | notFound
  | methodNotAllowed
  | unauthorized
  deriving DecidableEq, Repr

/-! ## Header checks -/

/-- The bytes of an ASCII literal. -/
def literalBytes (text : String) : List UInt8 :=
  text.toList.map fun c => c.toNat.toUInt8

/-- `single_header`. -/
def singleHeader (headers : HeaderMap) (name : String) : Option (List UInt8) :=
  match headers.getAll name with
  | [value] => some value
  | _ => none

/-- `strip_prefix` on bytes. -/
def stripBytes (start bytes : List UInt8) : Option (List UInt8) :=
  if bytes.take start.length = start then some (bytes.drop start.length) else none

/-- `bearer_candidate`. -/
def bearerCandidate (headers : HeaderMap) : Option (List UInt8) := do
  let value ← singleHeader headers "authorization"
  let candidate ← stripBytes (literalBytes "Bearer ") value
  if candidate.isEmpty then none else some candidate

/-- The condition under which `require_public_auth` lets a request pass. -/
def passesPublicAuth (state : AppState) (headers : HeaderMap) : Bool :=
  !(state.publicAuthRequired && !(bearerCandidate headers).any state.verifyPublicToken)

/-- The condition under which `require_admin_auth` lets a request pass. -/
def passesAdminAuth (state : AppState) (headers : HeaderMap) : Bool :=
  !(state.adminAuthRequired && !(bearerCandidate headers).any state.verifyAdminToken)

/-- The condition under which `require_metrics_auth` lets a request pass. -/
def passesMetricsAuth (state : AppState) (headers : HeaderMap) : Bool :=
  !(state.metricsAuthRequired && !(bearerCandidate headers).any state.verifyMetricsToken)

/-! ## The origin layer -/

/-- `HeaderValue::to_str`: visible ASCII, blank and tab. -/
def headerText (value : List UInt8) : Option (List UInt8) :=
  if value.all fun byte => (32 ≤ byte && byte < 127) || byte = 9 then some value else none

/-- `OriginPolicy::allows`. -/
def AppState.originAllowed (state : AppState) (origin : Option (List UInt8)) : Bool :=
  origin.all fun value =>
    state.allowedOrigins.any fun allowed => constantTimeEq allowed.toUTF8.toList value

/-- `route_method`. -/
def routeMethod (path : String) (adminEnabled : Bool) : Option Method :=
  if ["/", "/v1/models", "/health/live", "/health/ready", "/metrics", "/openapi.json"].contains
      path then some .get
  else if ["/v1/embeddings", "/v1/embed", "/mcp"].contains path then some .post
  else if adminEnabled && ["/v1/admin/models/install", "/v1/admin/models/load",
      "/v1/admin/models/unload", "/v1/admin/models/delete"].contains path then some .post
  else none

/-- ASCII white space around a header name, as `str::trim` removes it. -/
def trimBytes (bytes : List UInt8) : List UInt8 :=
  let blank := fun byte : UInt8 => byte = 32 || (9 ≤ byte && byte ≤ 13)
  ((bytes.dropWhile blank).reverse.dropWhile blank).reverse

/-- `to_ascii_lowercase` on bytes. -/
def lowerBytes (bytes : List UInt8) : List UInt8 :=
  bytes.map fun byte => if 65 ≤ byte && byte ≤ 90 then byte + 32 else byte

/-- `preflight_headers_allowed`. -/
def preflightHeadersAllowed (headers : HeaderMap) : Bool :=
  match headers.getAll "access-control-request-headers" with
  | [] => true
  | [value] =>
      match headerText value with
      | none => false
      | some text =>
          (text.splitOn 44).all fun name =>
            let name := lowerBytes (trimBytes name)
            name = literalBytes "authorization" || name = literalBytes "content-type"
  | _ => false

/-- The answer of `origin_layer` to a preflight request from an allowed origin. -/
def corsPreflight (state : AppState) (request : HttpRequest) (origin : Option (List UInt8)) :
    HttpOutcome :=
  match origin with
  | none => .forbidden
  | some _ =>
      match routeMethod request.path state.adminApiEnabled with
      | none => .notFound
      | some expected =>
          match (singleHeader request.headers "access-control-request-method").bind headerText with
          | none => .forbidden
          | some requested =>
              if requested ≠ literalBytes expected.asStr ||
                  !preflightHeadersAllowed request.headers then .forbidden
              else .noContent

/-! ## Routes -/

/-- The handler registered for a path, its method, and the group it belongs to. -/
def registered (path : String) (adminEnabled : Bool) : Option (Method × Handler) :=
  match path with
  | "/v1/embeddings" => some (.post, .openaiEmbeddings)
  | "/v1/embed" => some (.post, .nativeEmbeddings)
  | "/v1/models" => some (.get, .listModels)
  | "/mcp" => some (.post, .mcp)
  | "/" => some (.get, .statusPage)
  | "/health/live" => some (.get, .liveHealth)
  | "/health/ready" => some (.get, .readyHealth)
  | "/openapi.json" => some (.get, .openapi)
  | "/metrics" => some (.get, .metrics)
  | "/v1/admin/models/install" => if adminEnabled then some (.post, .adminInstall) else none
  | "/v1/admin/models/load" => if adminEnabled then some (.post, .adminLoad) else none
  | "/v1/admin/models/unload" => if adminEnabled then some (.post, .adminUnload) else none
  | "/v1/admin/models/delete" => if adminEnabled then some (.post, .adminDelete) else none
  | _ => none

/-- A route for `get` also answers `HEAD`. -/
def methodMatches (registered requested : Method) : Bool :=
  registered = requested || (registered = .get && requested = .head)

/-- The authentication layer in front of a handler. -/
def authorized (state : AppState) (headers : HeaderMap) (handler : Handler) : Bool :=
  if handler.isPublic then passesPublicAuth state headers
  else if handler.isAdmin then passesAdminAuth state headers
  else if handler = .metrics then passesMetricsAuth state headers
  else true

/-- The routes behind the origin layer. The layers of the public and the administrative group
come before the method is looked at, the one of `/metrics` after it. -/
def dispatch (state : AppState) (request : HttpRequest) : HttpOutcome :=
  match registered request.path state.adminApiEnabled with
  | none => .notFound
  | some (method, handler) =>
      if handler = .metrics && !methodMatches method request.method then .methodNotAllowed
      else if !authorized state request.headers handler then .unauthorized
      else if !methodMatches method request.method then .methodNotAllowed
      else .reached handler

/-- `router`. -/
def router (state : AppState) (request : HttpRequest) : HttpOutcome :=
  match request.headers.getAll "origin" with
  | _ :: _ :: _ => .forbidden
  | headers =>
      let header := headers.head?
      let origin := header.bind headerText
      if header.isSome && origin.isNone then .forbidden
      else if !state.originAllowed origin then .forbidden
      else if request.method = .options then corsPreflight state request origin
      else dispatch state request

/-! ## Who gets through -/

/-- The headers carry one `Authorization` header, which is exactly `Bearer ` and the secret. -/
def BearerOnly (headers : HeaderMap) (secret : Secret) : Prop :=
  headers.getAll "authorization" = [literalBytes "Bearer " ++ secret.bytes]

/-- A candidate that a credential accepts is its secret, alone behind `Bearer `. -/
theorem bearer_candidate_accepted {headers : HeaderMap} {secret : Secret} :
    (bearerCandidate headers).any (acceptsToken (some secret)) = true ↔
      BearerOnly headers secret := by
  unfold BearerOnly
  rw [Option.any_eq_true]
  simp only [bearerCandidate, Option.bind_eq_bind, Option.bind_eq_some_iff, acceptsToken,
    Option.all_some, Secret.verify_iff]
  constructor
  · rintro ⟨candidate, ⟨value, hvalue, stripped, hstripped, hcandidate⟩, rfl⟩
    split at hcandidate
    · cases hcandidate
    · cases hcandidate
      unfold singleHeader at hvalue
      split at hvalue
      · rename_i single hsingle
        cases hvalue
        rw [hsingle]
        unfold stripBytes at hstripped
        split at hstripped
        · rename_i hstart
          rw [Option.some.injEq] at hstripped
          rw [← List.take_append_drop (literalBytes "Bearer ").length value, hstart, hstripped]
        · cases hstripped
      · cases hvalue
  · intro h
    refine ⟨secret.bytes, ⟨_, by rw [singleHeader, h], secret.bytes, ?_, ?_⟩, rfl⟩
    · rw [stripBytes, if_pos List.take_left, List.drop_left]
    · rw [if_neg]
      rw [List.isEmpty_iff]
      exact secret.nonempty

/-- A layer with a credential lets exactly its bearer through; without one it lets everyone. -/
theorem passes_iff {credential : Option Secret} {headers : HeaderMap} :
    (!(credential.isSome && !(bearerCandidate headers).any (acceptsToken credential))) = true ↔
      ∀ secret, credential = some secret → BearerOnly headers secret := by
  cases credential with
  | none => simp
  | some secret =>
      rw [Option.isSome_some, Bool.true_and, Bool.not_not, bearer_candidate_accepted]
      simp

/-- Both listeners are bound to loopback addresses. -/
def ServerConfig.LoopbackOnly (config : ServerConfig) : Prop :=
  config.httpBind.ip.isLoopback = true ∧ config.grpcBind.ip.isLoopback = true

/-- What an accepted configuration without a credential is like. -/
theorem ServerConfig.validate_policy {host : Host} {config : ServerConfig}
    (h : config.validate host = .ok ()) :
    (config.auth = none → config.LoopbackOnly ∨ config.allowInsecureRemote = true) ∧
    (config.adminAuth = none → config.adminApiEnabled = true → config.LoopbackOnly) := by
  simp only [ServerConfig.validate, Checked.bind_ok] at h
  obtain ⟨_, hremote, _, hadmin, _⟩ := h
  have hremote := refuse_if_ok hremote
  have hadmin := refuse_if_ok hadmin
  unfold ServerConfig.remotelyExposed at hremote hadmin
  unfold ServerConfig.LoopbackOnly
  constructor
  · intro hauth
    rw [hauth] at hremote
    cases hhttp : config.httpBind.ip.isLoopback <;> cases hgrpc : config.grpcBind.ip.isLoopback <;>
      simp_all
  · intro hauth henabled
    rw [hauth, henabled] at hadmin
    cases hhttp : config.httpBind.ip.isLoopback <;> cases hgrpc : config.grpcBind.ip.isLoopback <;>
      simp_all

/-- A handler that is reached is registered for the path and lies behind its layer. -/
theorem router_reached {state : AppState} {request : HttpRequest} {handler : Handler}
    (h : router state request = .reached handler) :
    (∃ method, registered request.path state.adminApiEnabled = some (method, handler)) ∧
      authorized state request.headers handler = true := by
  have hdispatch : dispatch state request = .reached handler := by
    unfold router at h
    split at h
    · cases h
    · dsimp only at h
      split at h
      · cases h
      · split at h
        · cases h
        · split at h
          · unfold corsPreflight at h
            split at h
            · cases h
            · split at h
              · cases h
              · split at h
                · cases h
                · split at h <;> cases h
          · exact h
  unfold dispatch at hdispatch
  split at hdispatch
  · cases hdispatch
  · rename_i method target hregistered
    split at hdispatch
    · cases hdispatch
    · split at hdispatch
      · cases hdispatch
      · rename_i hauthorized
        split at hdispatch
        · cases hdispatch
        · cases hdispatch
          exact ⟨⟨method, hregistered⟩, by simpa using hauthorized⟩

/-- Administrative handlers are registered only if the administrative API is enabled. -/
theorem registered_admin {path : String} {enabled : Bool} {method : Method} {handler : Handler}
    (h : registered path enabled = some (method, handler)) (hadmin : handler.isAdmin = true) :
    enabled = true := by
  cases enabled with
  | true => rfl
  | false =>
      unfold registered at h
      split at h <;> cases h <;> cases hadmin

/-- The secret that the server loaded for a configured credential. -/
def Configured (host : Host) (credential : Option CredentialSource) (secret : Secret) : Prop :=
  ∃ source, credential = some source ∧ loadCredential host source = .ok secret

/-- A loaded credential: none is configured, or the secret of the configured one. -/
theorem load_optional_cases {host : Host} {credential : Option CredentialSource}
    {loaded : Option Secret} (h : loadOptional host credential = .ok loaded) :
    (credential = none ∧ loaded = none) ∨
      ∃ secret, loaded = some secret ∧ Configured host credential secret := by
  cases credential with
  | none =>
      cases h
      exact .inl ⟨rfl, rfl⟩
  | some source =>
      have hload := map_error_ok h
      cases hsecret : loadCredential host source with
      | error error =>
          rw [hsecret] at hload
          cases hload
      | ok secret =>
          rw [hsecret] at hload
          cases hload
          exact .inr ⟨secret, rfl, source, rfl, hsecret⟩

/-- A configured credential is loaded from its source alone. -/
theorem Configured.unique {host : Host} {credential : Option CredentialSource}
    {left right : Secret} (hleft : Configured host credential left)
    (hright : Configured host credential right) : left = right := by
  obtain ⟨source, rfl, hload⟩ := hleft
  obtain ⟨source', hsource, hload'⟩ := hright
  cases hsource
  rw [hload] at hload'
  exact Except.ok.inj hload'

/-- Access control from end to end. In a server that started, an administrative handler is
reached only if the administrative API is enabled, and then either without any administrative
credential on loopback listeners or with exactly its bearer header; a public handler only
without a public credential where validation allows that, or with exactly its bearer header;
`/metrics` only with the administrative secret if there is one, else with the public one.
With both credentials no request passes both checks. -/
theorem access_control (host : Host) (config : ServerConfig) (state : AppState)
    (hnew : AppState.new host config = .ok state) :
    (∀ request handler, router state request = .reached handler → handler.isAdmin = true →
      config.adminApiEnabled = true ∧
        ((config.adminAuth = none ∧ config.LoopbackOnly) ∨
          ∃ secret, Configured host config.adminAuth secret ∧ BearerOnly request.headers secret)) ∧
    (∀ request handler, router state request = .reached handler → handler.isPublic = true →
      (config.auth = none ∧ (config.LoopbackOnly ∨ config.allowInsecureRemote = true)) ∨
        ∃ secret, Configured host config.auth secret ∧ BearerOnly request.headers secret) ∧
    (∀ request, router state request = .reached .metrics →
      (∀ secret, Configured host config.adminAuth secret → BearerOnly request.headers secret) ∧
      (config.adminAuth = none → ∀ secret, Configured host config.auth secret →
        BearerOnly request.headers secret)) ∧
    (config.auth.isSome = true → config.adminAuth.isSome = true → ∀ headers,
      ¬ (passesPublicAuth state headers = true ∧ passesAdminAuth state headers = true)) := by
  have hstarted := AppState.new_started hnew
  have hpolicy := ServerConfig.validate_policy hstarted.valid
  have hpublic := load_optional_cases hstarted.public_loaded
  have hadmin := load_optional_cases hstarted.admin_loaded
  refine ⟨?_, ?_, ?_, ?_⟩
  · intro request handler hreached hhandler
    obtain ⟨⟨method, hregistered⟩, hauthorized⟩ := router_reached hreached
    -- Without the administrative API its routes are not registered.
    have henabled : config.adminApiEnabled = true := by
      rw [← hstarted.admin_enabled]
      exact registered_admin hregistered hhandler
    refine ⟨henabled, ?_⟩
    have hpasses : passesAdminAuth state request.headers = true := by
      cases handler <;> first | exact hauthorized | cases hhandler
    rcases hadmin with ⟨hnone, _⟩ | ⟨secret, hsecret, hconfigured⟩
    · exact .inl ⟨hnone, hpolicy.2 hnone henabled⟩
    · exact .inr ⟨secret, hconfigured, passes_iff.mp hpasses secret hsecret⟩
  · intro request handler hreached hhandler
    obtain ⟨_, hauthorized⟩ := router_reached hreached
    have hpasses : passesPublicAuth state request.headers = true := by
      cases handler <;> first | exact hauthorized | cases hhandler
    rcases hpublic with ⟨hnone, _⟩ | ⟨secret, hsecret, hconfigured⟩
    · exact .inl ⟨hnone, hpolicy.1 hnone⟩
    · exact .inr ⟨secret, hconfigured, passes_iff.mp hpasses secret hsecret⟩
  · intro request hreached
    obtain ⟨_, hauthorized⟩ := router_reached hreached
    have hpasses : passesMetricsAuth state request.headers = true := hauthorized
    have hbearer := passes_iff.mp hpasses
    unfold AppState.metricsCredential at hbearer
    constructor
    -- With both credentials the metrics take the administrative one.
    · intro secret hconfigured
      rcases hadmin with ⟨hnone, _⟩ | ⟨loaded, hloaded, hloadedFrom⟩
      · obtain ⟨source, hsource, _⟩ := hconfigured
        rw [hnone] at hsource
        cases hsource
      · rw [← hloadedFrom.unique hconfigured]
        exact hbearer loaded (by rw [hloaded, Option.some_or])
    · intro hnone secret hconfigured
      rcases hadmin with ⟨_, hunloaded⟩ | ⟨loaded, hloaded, source, hsource, _⟩
      · rcases hpublic with ⟨hnone', _⟩ | ⟨loaded, hloaded, hloadedFrom⟩
        · obtain ⟨source, hsource, _⟩ := hconfigured
          rw [hnone'] at hsource
          cases hsource
        · rw [← hloadedFrom.unique hconfigured]
          exact hbearer loaded (by rw [hunloaded, Option.none_or, hloaded])
      · rw [hnone] at hsource
        cases hsource
  · intro hauth hadminAuth headers hboth
    rcases hpublic with ⟨hnone, _⟩ | ⟨publicSecret, hpublicLoaded, _⟩
    · rw [hnone] at hauth
      cases hauth
    · rcases hadmin with ⟨hnone, _⟩ | ⟨adminSecret, hadminLoaded, _⟩
      · rw [hnone] at hadminAuth
        cases hadminAuth
      -- The one header would carry both secrets, and startup has compared them.
      · have hfirst : BearerOnly headers publicSecret :=
          passes_iff.mp hboth.1 publicSecret hpublicLoaded
        have hsecond : BearerOnly headers adminSecret :=
          passes_iff.mp hboth.2 adminSecret hadminLoaded
        have heq := hfirst.symm.trans hsecond
        rw [List.cons.injEq] at heq
        exact hstarted.distinct _ _ hpublicLoaded hadminLoaded (List.append_cancel_left heq.1)

/-- A host with two secrets in its environment, the first one with a line end. -/
def guardedHost : Host where
  environment name :=
    if name = "PUBLIC" then some [97, 10] else if name = "ADMIN" then some [98] else none
  openSecret _ := .error .unavailable
  parseOrigin _ := none
  applicationStarts _ := true

/-- A configuration on loopback listeners with both credentials and the administrative API. -/
def guardedConfig : ServerConfig where
  httpBind := ⟨.v4 0x7f000001#32, 8080, 0, 0⟩
  grpcBind := ⟨.v4 0x7f000001#32, 50051, 0, 0⟩
  allowInsecureRemote := false
  auth := some (.environment "PUBLIC")
  adminAuth := some (.environment "ADMIN")
  adminApiEnabled := true
  allowedOrigins := []
  cacheDirectory := "cache"
  preloadModels := []
  limits := ⟨4096, 1024, 2048, 8, 512, 16, 8, 1024, 2, 1000000000, 1000000000⟩

/-- The state that starts from them. -/
def guardedState : AppState where
  publicCredential := some ⟨[97], by decide, by decide⟩
  adminCredential := some ⟨[98], by decide, by decide⟩
  allowedOrigins := []
  adminApiEnabled := true

/-- A request for the loading of a model. -/
def loadRequest (authorization : String) : HttpRequest where
  method := .post
  path := "/v1/admin/models/load"
  headers := [("authorization", literalBytes authorization)]

/-- The guarded server starts; the administrator reaches the handler, as the theorem describes
it, the public secret does not, and no header list passes both checks. -/
theorem access_control_guarded :
    AppState.new guardedHost guardedConfig = .ok guardedState ∧
    router guardedState (loadRequest "Bearer b") = .reached .adminLoad ∧
    router guardedState (loadRequest "Bearer a") = .unauthorized ∧
    (∃ secret, Configured guardedHost guardedConfig.adminAuth secret ∧
      BearerOnly (loadRequest "Bearer b").headers secret) ∧
    ∀ headers, ¬ (passesPublicAuth guardedState headers = true ∧
      passesAdminAuth guardedState headers = true) := by
  have hnew : AppState.new guardedHost guardedConfig = .ok guardedState := rfl
  have hreached : router guardedState (loadRequest "Bearer b") = .reached .adminLoad := by
    decide +kernel
  have hcontrol := access_control guardedHost guardedConfig guardedState hnew
  have hadmin := hcontrol.1 _ _ hreached rfl
  refine ⟨hnew, hreached, by decide +kernel, ?_, hcontrol.2.2.2 rfl rfl⟩
  rcases hadmin.2 with ⟨hnone, _⟩ | hbearer
  · cases hnone
  · exact hbearer

end EmbeddingServer
