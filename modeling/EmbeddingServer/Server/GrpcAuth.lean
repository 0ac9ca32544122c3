import EmbeddingServer.Server.AccessControl

/-!
# Authentication of the gRPC adapter

The interceptor reads the same header as the HTTP layer by other code: it converts the value to
a string before it looks for `Bearer `, which refuses bytes above ASCII, while a secret may
consist of any bytes. The two transports agree on every request exactly if the secret is text,
or if no header can carry it at all.
-/

namespace EmbeddingServer

/-- The status with which the interceptor refuses. -/
inductive GrpcStatus where
  | unauthenticated (message : String)
  deriving DecidableEq, Repr

/-- `authorize`. -/
def authorize (state : AppState) (metadata : HeaderMap) : Except GrpcStatus Unit :=
  let refused := Except.error (.unauthenticated "authentication required")
  if metadata.any fun entry => entry.1 = "authorization-bin" then refused
  else
    match metadata.getAll "authorization" with
    | _ :: _ :: _ => refused
    | [] => if state.publicAuthRequired then refused else .ok ()
    | [value] =>
        match headerText value with
        | none => refused
        | some text =>
            match stripBytes (literalBytes "Bearer ") text with
            | none => refused
            | some token =>
                if token.isEmpty ||
                    (state.publicAuthRequired && !state.verifyPublicToken token) then
                  refused
                else .ok ()

/-- A byte that an HTTP field value may contain: not a control character other than tab. -/
def fieldByte (byte : UInt8) : Bool :=
  (32 ≤ byte && byte ≠ 127) || byte = 9

/-- Every value of the headers is one that a request can carry. -/
def HeaderMap.Carried (headers : HeaderMap) : Prop :=
  ∀ header ∈ headers, header.2.all fieldByte = true

/-- The bytes are text for `to_str`. -/
def isHeaderText (bytes : List UInt8) : Bool :=
  (headerText bytes).isSome

/-- The text of a concatenation. -/
theorem is_header_text_append (first second : List UInt8) :
    isHeaderText (first ++ second) = (isHeaderText first && isHeaderText second) := by
  simp only [isHeaderText, headerText, List.all_append]
  split <;> split <;> split <;> simp_all

theorem header_text_eq_some {bytes text : List UInt8} :
    headerText bytes = some text ↔ isHeaderText bytes = true ∧ bytes = text := by
  unfold isHeaderText headerText
  split <;> simp

/-- What is left behind a removed start. -/
theorem strip_bytes_eq_some {start bytes rest : List UInt8} :
    stripBytes start bytes = some rest ↔ bytes = start ++ rest := by
  unfold stripBytes
  constructor
  · intro h
    split at h
    · rename_i hstart
      rw [Option.some.injEq] at h
      rw [← List.take_append_drop start.length bytes, hstart, h]
    · cases h
  · rintro rfl
    rw [if_pos List.take_left, List.drop_left]

/-- With a credential the interceptor accepts exactly its bearer header, if it is text. -/
theorem authorize_ok_iff {state : AppState} {secret : Secret} {metadata : HeaderMap}
    (hsecret : state.publicCredential = some secret)
    (hbin : (metadata.any fun entry => entry.1 = "authorization-bin") = false) :
    authorize state metadata = .ok () ↔
      BearerOnly metadata secret ∧ isHeaderText secret.bytes = true := by
  have hrequired : state.publicAuthRequired = true := by
    rw [AppState.publicAuthRequired, hsecret]
    rfl
  have hverify : ∀ token, state.verifyPublicToken token = true ↔ token = secret.bytes := by
    intro token
    rw [AppState.verifyPublicToken, hsecret]
    exact secret.verify_iff token
  have hbearer : isHeaderText (literalBytes "Bearer ") = true := by decide
  unfold authorize BearerOnly
  simp only [hbin, hrequired, Bool.true_and, Bool.false_eq_true, if_false, if_true]
  constructor
  · intro h
    split at h
    · cases h
    · cases h
    · rename_i value hvalue
      split at h
      · cases h
      · rename_i text htext
        obtain ⟨hvisible, rfl⟩ := header_text_eq_some.mp htext
        split at h
        · cases h
        · rename_i token htoken
          have hsplit := strip_bytes_eq_some.mp htoken
          split at h
          · cases h
          · rename_i hrefused
            -- Another token is refused by the comparison.
            have htoken : token = secret.bytes := by
              refine (hverify token).mp ?_
              by_contra hfalse
              exact hrefused (by simp [hfalse])
            rw [htoken] at hsplit
            rw [hsplit, is_header_text_append, Bool.and_eq_true] at hvisible
            exact ⟨by rw [hvalue, hsplit], hvisible.2⟩
  · rintro ⟨hvalue, hvisible⟩
    -- `to_str` reads the value, since prefix and secret are visible.
    have htext : headerText (literalBytes "Bearer " ++ secret.bytes) =
        some (literalBytes "Bearer " ++ secret.bytes) :=
      header_text_eq_some.mpr ⟨by rw [is_header_text_append, hbearer, hvisible]; rfl, rfl⟩
    have hstrip : stripBytes (literalBytes "Bearer ") (literalBytes "Bearer " ++ secret.bytes) =
        some secret.bytes := strip_bytes_eq_some.mpr rfl
    have hempty : secret.bytes.isEmpty = false := by
      rw [Bool.eq_false_iff, Ne, List.isEmpty_iff]
      exact secret.nonempty
    rw [hvalue]
    simp only [htext, hstrip, hempty, (hverify secret.bytes).mpr rfl]
    rfl

/-- The HTTP layer accepts exactly the bearer header of the credential. -/
theorem passes_public_auth_iff {state : AppState} {secret : Secret} {headers : HeaderMap}
    (hsecret : state.publicCredential = some secret) :
    passesPublicAuth state headers = true ↔ BearerOnly headers secret := by
  have hpasses := @passes_iff (some secret) headers
  rw [← hsecret] at hpasses
  refine hpasses.trans ?_
  simp [hsecret]

/-- The two transports decide alike about every request without `authorization-bin` that can
be carried. -/
def TransportsAgree (state : AppState) : Prop :=
  ∀ headers : HeaderMap, headers.Carried →
    (headers.any fun entry => entry.1 = "authorization-bin") = false →
    (authorize state headers = .ok () ↔ passesPublicAuth state headers = true)

/-- The transports agree exactly if the secret is text, or cannot be carried in a header. -/
theorem transports_agree_iff {state : AppState} {secret : Secret}
    (hsecret : state.publicCredential = some secret) :
    TransportsAgree state ↔
      isHeaderText secret.bytes = true ∨ secret.bytes.all fieldByte = false := by
  constructor
  · intro hagree
    by_contra hneither
    rw [not_or, Bool.not_eq_false] at hneither
    obtain ⟨htext, hcarried⟩ := hneither
    -- The right bearer header itself tells the transports apart.
    have hbearer : BearerOnly [("authorization", literalBytes "Bearer " ++ secret.bytes)] secret :=
      rfl
    have hallowed :
        HeaderMap.Carried [("authorization", literalBytes "Bearer " ++ secret.bytes)] := by
      intro header hheader
      rw [List.mem_singleton] at hheader
      subst hheader
      rw [List.all_append, hcarried, Bool.and_true]
      decide
    have hbin : (([("authorization", literalBytes "Bearer " ++ secret.bytes)] : HeaderMap).any
        fun entry => entry.1 = "authorization-bin") = false := by
      simp
    have haccepted := (hagree _ hallowed hbin).mpr ((passes_public_auth_iff hsecret).mpr hbearer)
    exact htext ((authorize_ok_iff hsecret hbin).mp haccepted).2
  · intro hsound headers hcarried hbin
    rw [authorize_ok_iff hsecret hbin, passes_public_auth_iff hsecret]
    refine ⟨And.left, fun hbearer => ⟨hbearer, ?_⟩⟩
    rcases hsound with htext | huncarried
    · exact htext
    · -- The header would carry what no header can.
      have hmem : literalBytes "Bearer " ++ secret.bytes ∈ headers.getAll "authorization" := by
        rw [hbearer]
        exact List.mem_singleton_self _
      obtain ⟨header, hheader, hvalue⟩ := List.mem_map.mp hmem
      have hall := hcarried header (List.mem_filter.mp hheader).1
      rw [hvalue, List.all_append, huncarried, Bool.and_false] at hall
      cases hall

/-- A secret of one letter. -/
theorem transports_agree_letter : TransportsAgree guardedState :=
  (@transports_agree_iff guardedState ⟨[97], by decide, by decide⟩ rfl).mpr (.inl (by decide))

/-- A host whose credential file holds one letter with an accent and a line end. -/
def accentHost : Host where
  environment _ := none
  openSecret _ := .ok ⟨some (true, 3), some [0xc3, 0xa9, 10], some (true, 3)⟩
  parseOrigin _ := none
  applicationStarts _ := true

/-- The state that starts with this credential alone. -/
def accentState : AppState where
  publicCredential := some ⟨[0xc3, 0xa9], by decide, by decide⟩
  adminCredential := none
  allowedOrigins := []
  adminApiEnabled := false

/-- The right bearer header is accepted by HTTP and refused by gRPC. -/
theorem transports_disagree_accent :
    AppState.new accentHost { guardedConfig with
      auth := some (.file "token"), adminAuth := none, adminApiEnabled := false } =
        .ok accentState ∧
    passesPublicAuth accentState [("authorization", literalBytes "Bearer " ++ [0xc3, 0xa9])] =
      true ∧
    authorize accentState [("authorization", literalBytes "Bearer " ++ [0xc3, 0xa9])] =
      .error (.unauthenticated "authentication required") ∧
    ¬ TransportsAgree accentState := by
  refine ⟨rfl, by decide +kernel, by decide +kernel, ?_⟩
  intro hagree
  have haccepted := (hagree [("authorization", literalBytes "Bearer " ++ [0xc3, 0xa9])]
    (by
      intro header hheader
      rw [List.mem_singleton] at hheader
      subst hheader
      decide) (by decide)).mpr (by decide +kernel)
  cases haccepted

end EmbeddingServer
