import EmbeddingServer.Models.Streaming

/-!
# What the installer requests and what it stores

`Installer::download` against a server that answers with any status codes, `Location` values,
lengths and pieces of bodies: where its requests go and how many there are, how much it writes and
when it succeeds. Then `Installer::install_transaction`, whose durable phase comes after the
downloads of all artifacts.
-/

namespace EmbeddingServer

open Program

/-- The target of a request. -/
def getOf : FsEvent → List Url
  | ⟨.httpGet url, _⟩ => [url]
  | _ => []

/-- A piece of a body. -/
def bodyOf : FsEvent → List UInt8
  | ⟨.httpChunk, .ok (.ok (some chunk))⟩ => chunk
  | _ => []

/-- The targets of all requests. -/
def requests (events : List FsEvent) : List Url :=
  events.flatMap getOf

/-- The concatenation of the received pieces. -/
def bodyBytes (events : List FsEvent) : List UInt8 :=
  events.flatMap bodyOf

@[simp] theorem requests_nil : requests [] = [] := rfl

@[simp] theorem body_bytes_nil : bodyBytes [] = [] := rfl

@[simp] theorem requests_append (before after : List FsEvent) :
    requests (before ++ after) = requests before ++ requests after := List.flatMap_append

@[simp] theorem body_bytes_append (before after : List FsEvent) :
    bodyBytes (before ++ after) = bodyBytes before ++ bodyBytes after := List.flatMap_append

theorem requests_congr {events other : List FsEvent} (h : moved events = moved other) :
    requests events = requests other := by
  refine collect_congr ?_ h
  rintro ⟨op, reply⟩ hmoves
  cases op <;> first | rfl | cases hmoves

theorem body_bytes_congr {events other : List FsEvent} (h : moved events = moved other) :
    bodyBytes events = bodyBytes other := by
  refine collect_congr ?_ h
  rintro ⟨op, reply⟩ hmoves
  cases op <;> first | rfl | cases hmoves

/-- Scheme, host and effective port are those of an allowed origin. -/
def InstallOptions.Allows (options : InstallOptions) (url : Url) : Prop :=
  ∃ origin ∈ options.allowedOrigins,
    origin.scheme = url.scheme ∧ origin.host = url.host ∧ origin.port = url.port

theorem ensure_allowed_ok {options : InstallOptions} {url : Url}
    (h : ensureAllowed options url = .ok ()) : options.Allows url := by
  unfold ensureAllowed at h
  split at h
  · rename_i hany
    obtain ⟨origin, horigin, hsame⟩ := List.any_eq_true.mp hany
    simp only [Bool.and_eq_true, decide_eq_true_eq] at hsame
    exact ⟨origin, horigin, hsame.1.1, hsame.1.2, hsame.2⟩
  · cases h

section Download

variable {obeys : (op : FsOp) → op.Reply → Prop} {events : List FsEvent}
  {installer : Installer} {loc : Loc}

theorem ran_lift {α : Type} {value result : Except Error α}
    (h : Ran obeys (lift value).run events result) : events = [] ∧ result = value :=
  Ran.of_done h

/-- A sequence that succeeds has succeeded in its first part. -/
theorem ran_ok_bind {α β : Type} {body : StoreM α} {rest : α → StoreM β} {value : β}
    (h : Ran obeys (body >>= rest).run events (.ok value)) :
    ∃ before after first, events = before ++ after ∧ Ran obeys body.run before (.ok first) ∧
      Ran obeys (rest first).run after (.ok value) := by
  rcases Ran.of_bind_e h with ⟨_, hnever, _⟩ | hboth
  · cases hnever
  · exact hboth

theorem stop_if_cancelled_still : Still stopIfCancelled :=
  only_bind (only_fs rfl) fun _ => only_fail_if _ _

/-- So many requests, all to allowed origins, and nothing else. -/
structure Requests (options : InstallOptions) (limit : Nat) (events : List FsEvent) : Prop where
  count : (requests events).length ≤ limit
  allowed : ∀ url ∈ requests events, options.Allows url
  body : bodyBytes events = []
  written : writtenBytes events = []

theorem Requests.nil {options : InstallOptions} {limit : Nat} : Requests options limit [] where
  count := Nat.zero_le _
  allowed _ h := absurd h List.not_mem_nil
  body := rfl
  written := rfl

theorem Requests.append {options : InstallOptions} {first second : Nat}
    {before after : List FsEvent} (h : Requests options first before)
    (hafter : Requests options second after) :
    Requests options (first + second) (before ++ after) where
  count := by
    rw [requests_append, List.length_append]
    exact Nat.add_le_add h.count hafter.count
  allowed url hmem := by
    rw [requests_append] at hmem
    cases List.mem_append.mp hmem with
    | inl hin => exact h.allowed url hin
    | inr hin => exact hafter.allowed url hin
  body := by rw [body_bytes_append, h.body, hafter.body, List.append_nil]
  written := by rw [written_bytes_append, h.written, hafter.written, List.append_nil]

theorem Requests.mono {options : InstallOptions} {limit more : Nat}
    (h : Requests options limit events) (hle : limit ≤ more) : Requests options more events :=
  ⟨Nat.le_trans h.count hle, h.allowed, h.body, h.written⟩

/-- Code that moves nothing makes no request. -/
theorem Requests.of_moved {options : InstallOptions} {limit : Nat} {later : List FsEvent}
    (hmoved : moved events = moved later) (h : Requests options limit later) :
    Requests options limit events where
  count := by rw [requests_congr hmoved]; exact h.count
  allowed := by rw [requests_congr hmoved]; exact h.allowed
  body := (body_bytes_congr hmoved).trans h.body
  written := (written_bytes_congr hmoved).trans h.written

/-- One request, after the check of its target. -/
theorem send_request_ran {url : Url} {result : Except Error Response}
    (h : Ran obeys (sendRequest installer url).run events result) :
    Requests installer.options 1 events := by
  rcases Ran.of_bind_e h with ⟨error, rfl, hcheck⟩ | ⟨_, later, _, rfl, hcheck, hlater⟩
  · obtain ⟨rfl, _⟩ := ran_lift hcheck
    exact .nil
  obtain ⟨rfl, hallowed⟩ := ran_lift hcheck
  have hallows := ensure_allowed_ok hallowed.symm
  obtain ⟨afterPoll, hmoved, ⟨error, rfl, rfl⟩ | ⟨_, hsend⟩⟩ :=
    still_bind stop_if_cancelled_still hlater
  · exact .of_moved hmoved .nil
  refine .of_moved hmoved ?_
  have hget : ∀ reply : (FsOp.httpGet url).Reply,
      Requests installer.options 1 [⟨.httpGet url, reply⟩] := by
    intro reply
    refine ⟨Nat.le_refl 1, ?_, rfl, rfl⟩
    intro target hmem
    exact (List.mem_singleton.mp hmem) ▸ hallows
  rcases Ran.of_bind_e hsend with ⟨error, rfl, hsent⟩ | ⟨_, rest, answer, rfl, hsent, hrest⟩
  · obtain ⟨reply, _, rfl, _⟩ := ran_fs hsent
    exact hget reply
  obtain ⟨reply, _, rfl, _⟩ := ran_fs hsent
  have hquiet : moved rest = moved [] := by
    cases answer with
    | error kind =>
        obtain ⟨rfl, _⟩ := Ran.of_throw hrest
        rfl
    | ok response =>
        exact still_moved (only_bind stop_if_cancelled_still fun _ => only_pure _) hrest
  exact (hget reply).append (.of_moved hquiet (.nil : Requests _ 0 []))

/-- At most one request more than there are redirects left. -/
theorem follow_redirects_ran {remaining : Nat} {url : Url} {result : Except Error Response}
    (h : Ran obeys (followRedirects installer remaining url).run events result) :
    Requests installer.options (remaining + 1) events := by
  induction remaining generalizing url events with
  | zero =>
      rcases Ran.of_bind_e h with ⟨error, rfl, hsend⟩ | ⟨_, later, response, rfl, hsend, hlater⟩
      · exact send_request_ran hsend
      · have hnone : later = [] := by
          split at hlater
          · exact (Ran.of_throw hlater).1
          · split at hlater
            · exact (Ran.of_throw hlater).1
            · exact (Ran.of_pure hlater).1
        subst hnone
        exact ((send_request_ran hsend).append (.nil : Requests _ 0 [])).mono (by omega)
  | succ remaining ih =>
      rcases Ran.of_bind_e h with ⟨error, rfl, hsend⟩ | ⟨_, later, response, rfl, hsend, hlater⟩
      · exact (send_request_ran hsend).mono (by omega)
      · have hrest : Requests installer.options (remaining + 1) later := by
          split at hlater
          · rcases Ran.of_bind_e hlater with
              ⟨error, rfl, htarget⟩ | ⟨_, rest, _, rfl, htarget, hrest⟩
            · obtain ⟨rfl, _⟩ := ran_lift htarget
              exact .nil
            · obtain ⟨rfl, _⟩ := ran_lift htarget
              exact ih hrest
          · split at hlater
            · rw [(Ran.of_throw hlater).1]
              exact .nil
            · rw [(Ran.of_pure hlater).1]
              exact .nil
        exact ((send_request_ran hsend).append hrest).mono (by omega)

/-- The bound on what is written of an artifact. -/
def bodyLimit (installer : Installer) (expectedSize : Nat) : Nat :=
  min expectedSize installer.options.maxArtifactBytes

/-- The body loop writes what it received, and no more than the limit. -/
theorem receive_body_ran {path : RelPath} {expectedSize fuel : Nat} {received : List UInt8}
    {result : Except Error (List UInt8)}
    (h : Ran obeys (receiveBody installer loc path expectedSize fuel received).run events result)
    (hreceived : received.length ≤ bodyLimit installer expectedSize) :
    received.length + (writtenBytes events).length ≤ bodyLimit installer expectedSize ∧
      requests events = [] ∧ ∀ all, result = .ok all →
        all = received ++ bodyBytes events ∧ writtenBytes events = bodyBytes events := by
  induction fuel generalizing received events with
  | zero =>
      obtain ⟨rfl, rfl⟩ := Ran.of_throw h
      exact ⟨by simpa using hreceived, rfl, by simp⟩
  | succ fuel ih =>
      obtain ⟨afterPoll, hmoved, ⟨error, rfl, rfl⟩ | ⟨_, hround⟩⟩ :=
        still_bind stop_if_cancelled_still h
      · refine ⟨?_, requests_congr hmoved, by simp⟩
        rw [written_bytes_congr hmoved]
        simpa using hreceived
      rw [written_bytes_congr hmoved, requests_congr hmoved, body_bytes_congr hmoved]
      -- The poll before the chunk is no event that counts.
      clear hmoved
      rcases Ran.of_bind_e hround with ⟨error, rfl, hchunk⟩ |
        ⟨_, later, answer, rfl, hchunk, hlater⟩
      · obtain ⟨_, _, rfl, _⟩ := ran_fs hchunk
        exact ⟨by simpa [writtenBytes, writtenOf] using hreceived, rfl, by simp⟩
      obtain ⟨reply, hobeys, rfl, hreply⟩ := ran_fs hchunk
      obtain rfl : reply = .ok answer := by
        cases reply with
        | error _ => cases hreply
        | ok value => rw [Except.ok.inj hreply]
      clear hobeys hchunk hreply
      split at hlater
      · obtain ⟨rfl, rfl⟩ := Ran.of_throw hlater
        exact ⟨by simpa [writtenBytes, writtenOf] using hreceived, rfl, by simp⟩
      · obtain ⟨rfl, rfl⟩ := Ran.of_pure hlater
        refine ⟨by simpa [writtenBytes, writtenOf] using hreceived, rfl, ?_⟩
        simp [bodyBytes, bodyOf, writtenBytes, writtenOf]
      · rename_i chunk
        dsimp only at hlater
        split at hlater
        · obtain ⟨rfl, rfl⟩ := Ran.of_throw hlater
          exact ⟨by simpa [writtenBytes, writtenOf] using hreceived, rfl, by simp⟩
        · rename_i hfits
          -- The chunk was found to fit before it is written.
          have hlimit : (received ++ chunk).length ≤ bodyLimit installer expectedSize := by
            rw [List.length_append]
            unfold bodyLimit
            omega
          rcases Ran.of_bind_e hlater with ⟨error, rfl, hwrite⟩ | ⟨_, rest, _, rfl, hwrite, hrest⟩
          · obtain ⟨_, _, rfl, _⟩ := ran_fs hwrite
            exact ⟨by simpa [writtenBytes, writtenOf] using hlimit, rfl, by simp⟩
          obtain ⟨written, _, rfl, _⟩ := ran_fs hwrite
          obtain ⟨hbound, hnone, hall⟩ := ih hrest hlimit
          -- One round receives the chunk and writes it.
          have hwritten : writtenBytes ([⟨.httpChunk, .ok (.ok (some chunk))⟩] ++
              ([⟨.append loc path chunk, written⟩] ++ rest)) = chunk ++ writtenBytes rest := rfl
          have hbody : bodyBytes ([⟨.httpChunk, .ok (.ok (some chunk))⟩] ++
              ([⟨.append loc path chunk, written⟩] ++ rest)) = chunk ++ bodyBytes rest := rfl
          rw [hwritten, hbody]
          refine ⟨?_, hnone, ?_⟩
          · rw [List.length_append] at hbound ⊢
            omega
          · intro all hresult
            obtain ⟨heq, hsame⟩ := hall all hresult
            exact ⟨heq.trans (List.append_assoc ..), by rw [hsame]⟩

/-- What is true of a download: where it sends requests, how much it writes, and what it has
received when it succeeds. -/
structure DownloadLaw (installer : Installer) (artifact : Artifact) (limit : Nat)
    (events : List FsEvent) (result : Except Error Unit) : Prop where
  count : (requests events).length ≤ limit
  allowed : ∀ url ∈ requests events, installer.options.Allows url
  written : (writtenBytes events).length ≤ bodyLimit installer artifact.size.toNat
  stored : result = .ok () → writtenBytes events = bodyBytes events
  size : result = .ok () → (bodyBytes events).length = artifact.size.toNat
  digest : result = .ok () → installer.store.ext.sha256 (bodyBytes events) = artifact.sha256

/-- A download that fails before anything was received. -/
theorem DownloadLaw.failed {artifact : Artifact} {limit : Nat} {error : Error}
    (h : Requests installer.options limit events) :
    DownloadLaw installer artifact limit events (.error error) where
  count := h.count
  allowed := h.allowed
  written := by rw [h.written]; exact Nat.zero_le _
  stored hok := by cases hok
  size hok := by cases hok
  digest hok := by cases hok

/-- Requests, and a download that goes on without any. -/
theorem DownloadLaw.after {artifact : Artifact} {limit : Nat} {before : List FsEvent}
    {result : Except Error Unit} (hbefore : Requests installer.options limit before)
    (h : DownloadLaw installer artifact 0 events result) :
    DownloadLaw installer artifact limit (before ++ events) result where
  count := by
    rw [requests_append, List.length_append]
    exact Nat.add_le_add hbefore.count h.count
  allowed url hmem := by
    rw [requests_append] at hmem
    cases List.mem_append.mp hmem with
    | inl hin => exact hbefore.allowed url hin
    | inr hin => exact h.allowed url hin
  written := by
    rw [written_bytes_append, hbefore.written]
    exact h.written
  stored hok := by
    rw [written_bytes_append, body_bytes_append, hbefore.written, hbefore.body]
    exact h.stored hok
  size hok := by
    rw [body_bytes_append, hbefore.body]
    exact h.size hok
  digest hok := by
    rw [body_bytes_append, hbefore.body]
    exact h.digest hok

/-- Code that moves nothing. -/
theorem DownloadLaw.of_moved {artifact : Artifact} {limit : Nat} {later : List FsEvent}
    {result : Except Error Unit} (hmoved : moved events = moved later)
    (h : DownloadLaw installer artifact limit later result) :
    DownloadLaw installer artifact limit events result := by
  obtain ⟨hcount, hallowed, hwritten, hstored, hsize, hdigest⟩ := h
  constructor <;>
    simp only [requests_congr hmoved, written_bytes_congr hmoved, body_bytes_congr hmoved] <;>
    assumption

/-- What a download does after the body: flush the file, look at it and compare. -/
def checkBody (installer : Installer) (loc : Loc) (artifact : Artifact) (received : List UInt8) :
    StoreM Unit := do
  fs (.syncEntry loc artifact.relative)
  let metadata ← pathMetadata loc artifact.relative
  failIf (received.length ≠ artifact.size.toNat) (.sizeLimit artifact.size.toNat received.length)
  failIf (installer.store.ext.sha256 received ≠ artifact.sha256)
    (.hashMismatch artifact.sha256 (installer.store.ext.sha256 received))
  failIf (metadata ≠ (.file, artifact.size.toNat))
    (.invalid "staged artifact changed while writing")
  revalidateContainedPath loc artifact.relative

theorem store_body_eq (installer : Installer) (loc : Loc) (artifact : Artifact) :
    storeBody installer loc artifact = (do
      createNewContainedFile loc artifact.relative
      let received ← receiveBody installer loc artifact.relative artifact.size.toNat
        (installer.chunks + 1) []
      checkBody installer loc artifact received) := rfl

theorem check_body_only {allowed : FsOp → Prop} {artifact : Artifact} {received : List UInt8}
    (hsync : allowed (.syncEntry loc artifact.relative))
    (hmeta : allowed (.fileMetadata loc artifact.relative))
    (hpath : Only allowed (revalidateContainedPath loc artifact.relative)) :
    Only allowed (checkBody installer loc artifact received) := by
  refine only_bind (only_fs hsync) fun _ => only_bind (only_path_metadata hmeta) fun _ => ?_
  refine only_bind (only_fail_if _ _) fun _ => only_bind (only_fail_if _ _) fun _ => ?_
  exact only_bind (only_fail_if _ _) fun _ => hpath

theorem check_body_still {artifact : Artifact} {received : List UInt8} :
    Still (checkBody installer loc artifact received) :=
  check_body_only rfl rfl (only_bind reject_reparse_components_still fun _ =>
    only_bind (only_path_metadata rfl) fun _ => only_fail_if _ _)

/-- It passes only if the size and the digest are the declared ones. -/
theorem check_body_ok {artifact : Artifact} {received : List UInt8}
    (h : Ran obeys (checkBody installer loc artifact received).run events (.ok ())) :
    received.length = artifact.size.toNat ∧
      installer.store.ext.sha256 received = artifact.sha256 := by
  obtain ⟨_, _, _, _, _, hsynced⟩ := ran_ok_bind h
  obtain ⟨_, _, _, _, _, hlooked⟩ := ran_ok_bind hsynced
  obtain ⟨_, _, _, _, hsize, hsized⟩ := ran_ok_bind hlooked
  obtain ⟨_, _, _, _, hdigest, _⟩ := ran_ok_bind hsized
  obtain ⟨_, ⟨_, hnever⟩ | ⟨hlength, _⟩⟩ := ran_fail_if hsize
  · cases hnever
  obtain ⟨_, ⟨_, hnever⟩ | ⟨hequal, _⟩⟩ := ran_fail_if hdigest
  · cases hnever
  exact ⟨not_not.mp hlength, not_not.mp hequal⟩

/-- The part of a download that stores the body. -/
theorem store_body_ran {artifact : Artifact} {result : Except Error Unit}
    (h : Ran obeys (storeBody installer loc artifact).run events result) :
    DownloadLaw installer artifact 0 events result := by
  rw [store_body_eq] at h
  obtain ⟨afterCreate, hmoved, ⟨error, rfl, rfl⟩ | ⟨_, hreceive⟩⟩ :=
    still_bind create_new_contained_file_still h
  · exact .failed (.of_moved hmoved .nil)
  refine .of_moved hmoved ?_
  clear hmoved
  rcases Ran.of_bind_e hreceive with
    ⟨error, rfl, hloop⟩ | ⟨pieces, later, received, rfl, hloop, hlater⟩
  · obtain ⟨hbound, hnone, _⟩ := receive_body_ran hloop (Nat.zero_le _)
    rw [List.length_nil, Nat.zero_add] at hbound
    exact ⟨by simp [hnone], by simp [hnone], hbound, by simp, by simp, by simp⟩
  obtain ⟨hbound, hnone, hall⟩ := receive_body_ran hloop (Nat.zero_le _)
  obtain ⟨hreceived, hsame⟩ := hall received rfl
  rw [List.length_nil, Nat.zero_add] at hbound
  rw [List.nil_append] at hreceived
  have hquiet := still_moved check_body_still hlater
  constructor
  · simp [hnone, requests_congr hquiet]
  · simp [hnone, requests_congr hquiet]
  · rw [written_bytes_append, written_bytes_congr hquiet, written_bytes_nil, List.append_nil]
    exact hbound
  · intro _
    rw [written_bytes_append, body_bytes_append, written_bytes_congr hquiet,
      body_bytes_congr hquiet, hsame]
    rfl
  · intro hok
    rw [body_bytes_append, body_bytes_congr hquiet, body_bytes_nil, List.append_nil, ← hreceived]
    exact (check_body_ok (hok ▸ hlater)).1
  · intro hok
    rw [body_bytes_append, body_bytes_congr hquiet, body_bytes_nil, List.append_nil, ← hreceived]
    exact (check_body_ok (hok ▸ hlater)).2

/-- `Installer::download`. -/
theorem download_ran {artifact : Artifact} {result : Except Error Unit}
    (h : Ran obeys (download installer loc artifact).run events result) :
    DownloadLaw installer artifact (installer.options.maxRedirects + 1) events result := by
  unfold download at h
  split at h
  · obtain ⟨rfl, rfl⟩ := Ran.of_throw h
    exact .failed .nil
  · rcases Ran.of_bind_e h with ⟨error, rfl, hfollow⟩ | ⟨_, later, response, rfl, hfollow, hlater⟩
    · exact .failed (follow_redirects_ran hfollow)
    · refine .after (follow_redirects_ran hfollow) ?_
      rcases Ran.of_bind_e hlater with ⟨error, rfl, hlength⟩ | ⟨_, body, _, rfl, hlength, hbody⟩
      · obtain ⟨rfl, _⟩ := ran_lift hlength
        exact .failed .nil
      · obtain ⟨rfl, _⟩ := ran_lift hlength
        exact store_body_ran hbody

end Download

/-! ## What the other parts of an installation perform -/

/-- Asking a server. -/
def FsOp.asks : FsOp → Bool
  | .httpGet _ | .httpChunk => true
  | _ => false

/-- The commit gate, and what only `promote` performs. -/
def FsOp.commits : FsOp → Bool
  | .beginCommit | .readTree _ | .createMarker _ => true
  | _ => false

/-- Code that neither asks a server nor belongs to the commit phase. -/
abbrev Plain {α : Type} (body : StoreM α) : Prop :=
  Only (fun op => op.asks = false ∧ op.commits = false) body

/-- Code that asks no server. -/
abbrev Silent {α : Type} (body : StoreM α) : Prop :=
  Only (fun op => op.asks = false) body

/-- Code that does not belong to the commit phase. -/
abbrev Uncommitted {α : Type} (body : StoreM α) : Prop :=
  Only (fun op => op.commits = false) body

section Footprints

variable {store : ModelStore} {key : String} {loc : Loc} {path : RelPath} {α : Type}

theorem Plain.silent {body : StoreM α} (h : Plain body) : Silent body :=
  h.mono fun _ hop => hop.1

theorem Plain.uncommitted {body : StoreM α} (h : Plain body) : Uncommitted body :=
  h.mono fun _ hop => hop.2

theorem durable_rename_plain (src dst : Loc) : Plain (durableRename src dst) := by
  have hparents : Plain (syncParents src dst) := by
    refine only_bind (only_fs ⟨rfl, rfl⟩) fun _ => ?_
    split
    · exact only_fs ⟨rfl, rfl⟩
    · exact only_pure _
  refine only_bind (only_fs ⟨rfl, rfl⟩) fun _ => only_bind hparents fun _ => ?_
  refine only_bind (only_fs ⟨rfl, rfl⟩) fun _ => ?_
  exact only_bind (only_fs ⟨rfl, rfl⟩) fun _ => hparents

theorem close_transaction_plain : Plain (closeTransaction key) :=
  only_bind (only_fs ⟨rfl, rfl⟩) fun _ => only_fs ⟨rfl, rfl⟩

theorem verify_transaction_final_plain : Plain (verifyTransactionFinal key) :=
  only_bind (only_fs ⟨rfl, rfl⟩) fun _ => only_fail_if _ _

theorem quarantine_backup_plain : Plain (quarantineBackup store key) := by
  refine only_bind (only_fs ⟨rfl, rfl⟩) fun found => ?_
  split
  · exact only_pure _
  · refine only_bind (only_fs ⟨rfl, rfl⟩) fun _ => only_bind (only_fs ⟨rfl, rfl⟩) fun _ => ?_
    exact only_bind (only_fs ⟨rfl, rfl⟩) fun _ => durable_rename_plain _ _

theorem resume_transaction_plain (final staging backup : Bool) :
    Plain (resumeTransaction key final staging backup) := by
  unfold resumeTransaction
  split
  · exact only_bind (durable_rename_plain _ _) fun _ => durable_rename_plain _ _
  · exact durable_rename_plain _ _
  · exact durable_rename_plain _ _
  · exact only_pure _
  · exact only_invalid _

theorem reconcile_repair_plain : Plain (reconcileRepair store key) := by
  refine only_bind (only_fs ⟨rfl, rfl⟩) fun found => ?_
  split
  · exact only_pure _
  · refine only_bind (only_fs ⟨rfl, rfl⟩) fun _ => only_bind (only_fs ⟨rfl, rfl⟩) fun _ => ?_
    refine only_bind (only_fs ⟨rfl, rfl⟩) fun _ => ?_
    refine only_bind (resume_transaction_plain _ _ _) fun _ => ?_
    refine only_bind verify_transaction_final_plain fun _ => ?_
    exact only_bind quarantine_backup_plain fun _ => close_transaction_plain
  · exact only_invalid _

theorem only_holding {allowed : FsOp → Prop} {body : StoreM α} {handle : Nat}
    (hunlock : allowed (.unlock key handle)) (h : Only allowed body) :
    Only allowed (holding key handle body) :=
  only_bind (only_attempt h) fun _ => only_bind (only_fs hunlock) fun _ => only_lift _

theorem acquire_store_lock_plain {cancelled : StoreM Bool} (hcancel : Plain cancelled) :
    Plain (acquireStoreLock store key cancelled) := by
  refine only_bind (only_fs ⟨rfl, rfl⟩) fun _ => ?_
  generalize store.attempts + 1 = attempts
  induction attempts with
  | zero => exact only_throw _
  | succ attempts ih =>
      refine only_bind hcancel fun _ => only_bind (only_fail_if _ _) fun _ => ?_
      refine only_bind (only_attempt (only_bind (only_fs ⟨rfl, rfl⟩) fun _ =>
        only_fs ⟨rfl, rfl⟩)) fun result => ?_
      split
      · exact only_pure _
      · exact ih
      · exact only_throw _

theorem Only.plain {dirs : List RelPath} {body : StoreM α}
    (h : Only (FsOp.Inspects loc dirs) body) : Plain body := by
  refine h.mono fun op hop => ?_
  cases op <;> first | exact ⟨rfl, rfl⟩ | exact hop.elim

theorem status_with_cancel_plain {manifest : Manifest} {cancelled : StoreM Bool}
    (hcancel : Polls cancelled) : Plain (statusWithCancel store manifest cancelled) := by
  have hplain : Plain cancelled := hcancel.only ⟨rfl, rfl⟩
  refine only_bind (only_lift _) fun _ => only_bind hplain fun _ => ?_
  refine only_bind (only_fail_if _ _) fun _ => only_bind ?_ fun _ => ?_
  · refine only_bind (only_fs ⟨rfl, rfl⟩) fun found => ?_
    split
    · refine only_bind (acquire_store_lock_plain hplain) fun _ => ?_
      exact only_holding ⟨rfl, rfl⟩ reconcile_repair_plain
    · exact only_pure _
  · exact (status_inner_only (hcancel.only trivial)).plain

theorem create_roots_plain (roots : List Root) : Plain (createRoots roots) := by
  induction roots with
  | nil => exact only_pure _
  | cons root rest ih =>
      refine only_bind (only_fs ⟨rfl, rfl⟩) fun _ => ?_
      exact only_bind (only_fs ⟨rfl, rfl⟩) fun _ => ih

theorem remove_dir_all_plain (loc : Loc) : Plain (removeDirAll loc) := by
  refine only_bind (only_fs ⟨rfl, rfl⟩) fun listing => ?_
  generalize postOrder listing = entries
  induction entries with
  | nil => exact only_fs ⟨rfl, rfl⟩
  | cons entry rest ih => exact only_bind (only_fs ⟨rfl, rfl⟩) fun _ => ih

theorem prepare_staging_plain : Plain (prepareStaging key) := by
  have hremove : Plain (removeStaging key) := by
    refine only_bind (only_fs ⟨rfl, rfl⟩) fun found => ?_
    split
    · exact only_pure _
    · exact only_bind (remove_dir_all_plain _) fun _ => only_fs ⟨rfl, rfl⟩
    · exact only_invalid _
  refine only_bind (create_roots_plain _) fun _ => only_bind (only_fs ⟨rfl, rfl⟩) fun _ => ?_
  refine only_bind hremove fun _ => only_bind (only_fs ⟨rfl, rfl⟩) fun _ => ?_
  refine only_bind (only_bind (only_symlink_metadata ⟨rfl, rfl⟩) fun _ => only_fail_if _ _)
    fun _ => ?_
  refine only_bind (only_fs ⟨rfl, rfl⟩) fun _ => only_bind (only_fs ⟨rfl, rfl⟩) fun _ => ?_
  exact only_fs ⟨rfl, rfl⟩

theorem stop_if_cancelled_plain : Plain stopIfCancelled :=
  only_bind (only_fs ⟨rfl, rfl⟩) fun _ => only_fail_if _ _

theorem acquire_install_lock_plain : Plain (acquireInstallLock store key) := by
  refine only_bind (only_fs ⟨rfl, rfl⟩) fun _ => ?_
  generalize store.attempts + 1 = attempts
  induction attempts with
  | zero => exact only_throw _
  | succ attempts ih =>
      refine only_bind (only_attempt (only_bind (only_fs ⟨rfl, rfl⟩) fun _ =>
        only_fs ⟨rfl, rfl⟩)) fun result => ?_
      split
      · exact only_pure _
      · exact only_bind stop_if_cancelled_plain fun _ => ih
      · exact only_throw _

theorem create_contained_parent_directories_plain :
    Plain (createContainedParentDirectories loc path) := by
  refine only_bind (securely_open_parent_only (List.Subset.refl _)).plain fun _ => ?_
  refine only_bind (@reject_reparse_components_only loc [] path.dropLast).plain fun _ => ?_
  exact only_bind (only_path_metadata ⟨rfl, rfl⟩) fun _ => only_fail_if _ _

theorem revalidate_contained_path_plain : Plain (revalidateContainedPath loc path) := by
  refine only_bind (@reject_reparse_components_only loc [] path).plain fun _ => ?_
  exact only_bind (only_path_metadata ⟨rfl, rfl⟩) fun _ => only_fail_if _ _

theorem create_new_contained_file_plain : Plain (createNewContainedFile loc path) := by
  refine only_bind (securely_open_parent_only (List.Subset.refl _)).plain fun _ => ?_
  refine only_bind (only_fs ⟨rfl, rfl⟩) fun _ => ?_
  refine only_bind (only_path_metadata ⟨rfl, rfl⟩) fun _ => ?_
  exact only_bind (only_fail_if _ _) fun _ => revalidate_contained_path_plain

theorem abandon_transaction_plain (error : Error) : Plain (abandonTransaction key error) :=
  only_bind verify_transaction_final_plain fun _ =>
    only_bind close_transaction_plain fun _ => only_throw _

theorem sync_staged_tree_silent (loc : Loc) : Silent (syncStagedTree loc) := by
  refine only_bind (only_bind (only_symlink_metadata rfl) fun _ => only_fail_if _ _) fun _ => ?_
  refine only_bind (only_symlink_metadata rfl) fun _ => only_bind (only_fail_if _ _) fun _ => ?_
  refine only_bind (only_fs rfl) fun listing => only_bind ?_ fun _ => ?_
  · generalize postOrder listing = entries
    induction entries with
    | nil => exact only_pure _
    | cons entry rest ih =>
        refine only_bind ?_ fun _ => ih
        unfold syncStagedEntry
        split
        · exact only_invalid _
        · exact only_invalid _
        · exact only_fs rfl
  · exact only_bind (only_fs rfl) fun _ => only_bind (only_fs rfl) fun _ => only_fs rfl

theorem begin_transaction_silent : Silent (beginTransaction key) := by
  refine only_bind (@reject_reparse_only _ []).plain.silent fun _ => ?_
  refine only_bind (only_fs rfl) fun _ => only_bind (only_fs rfl) fun _ => ?_
  refine only_bind (only_fs rfl) fun _ => only_bind (only_fail_if _ _) fun _ => ?_
  refine only_bind (only_fs rfl) fun _ => only_bind (only_fail_if _ _) fun _ => ?_
  refine only_bind (only_fs rfl) fun _ => only_bind (only_fs rfl) fun _ => ?_
  exact only_bind (only_fs rfl) fun _ => only_fs rfl

theorem promote_displaced_plain : Plain (promoteDisplaced store key) := by
  refine only_bind (only_fs ⟨rfl, rfl⟩) fun _ => ?_
  refine only_bind (only_attempt (durable_rename_plain _ _)) fun result => ?_
  split
  · refine only_bind (only_attempt (durable_rename_plain _ _)) fun result => ?_
    split
    · exact only_invalid _
    · exact abandon_transaction_plain _
  · refine only_bind verify_transaction_final_plain fun _ => ?_
    refine only_bind (only_fs ⟨rfl, rfl⟩) fun _ => ?_
    exact only_bind quarantine_backup_plain fun _ => close_transaction_plain

theorem promote_silent : Silent (promote store key) := by
  refine only_bind reconcile_repair_plain.silent fun _ => ?_
  refine only_bind (sync_staged_tree_silent _) fun _ => only_bind (only_fs rfl) fun found => ?_
  split
  · exact (durable_rename_plain _ _).silent
  · refine only_bind begin_transaction_silent fun _ => ?_
    refine only_bind (only_attempt (durable_rename_plain _ _).silent) fun result => ?_
    split
    · exact (abandon_transaction_plain _).silent
    · exact promote_displaced_plain.silent

/-- The commit phase asks no server. -/
theorem commit_install_silent (installer : Installer) (manifest : Manifest) :
    Silent (commitInstall installer manifest) := by
  refine only_bind (only_lift _) fun encoded => ?_
  refine only_bind create_new_contained_file_plain.silent fun _ => ?_
  refine only_bind (only_fs rfl) fun _ => only_bind (only_fs rfl) fun _ => ?_
  refine only_bind (only_path_metadata rfl) fun _ => only_bind (only_fail_if _ _) fun _ => ?_
  exact only_bind revalidate_contained_path_plain.silent fun _ => promote_silent

variable (installer : Installer)

theorem send_request_uncommitted (url : Url) : Uncommitted (sendRequest installer url) := by
  refine only_bind (only_lift _) fun _ => only_bind stop_if_cancelled_plain.uncommitted fun _ => ?_
  refine only_bind (only_fs rfl) fun answer => ?_
  split
  · exact only_throw _
  · exact only_bind stop_if_cancelled_plain.uncommitted fun _ => only_pure _

theorem follow_redirects_uncommitted (remaining : Nat) (url : Url) :
    Uncommitted (followRedirects installer remaining url) := by
  induction remaining generalizing url with
  | zero =>
      refine only_bind (send_request_uncommitted installer url) fun response => ?_
      split
      · exact only_invalid _
      · split
        · exact only_invalid _
        · exact only_pure _
  | succ remaining ih =>
      refine only_bind (send_request_uncommitted installer url) fun response => ?_
      split
      · exact only_bind (only_lift _) fun target => ih target
      · split
        · exact only_invalid _
        · exact only_pure _

theorem receive_body_uncommitted (size fuel : Nat) (received : List UInt8) :
    Uncommitted (receiveBody installer loc path size fuel received) := by
  induction fuel generalizing received with
  | zero => exact only_throw _
  | succ fuel ih =>
      refine only_bind stop_if_cancelled_plain.uncommitted fun _ => ?_
      refine only_bind (only_fs rfl) fun answer => ?_
      split
      · exact only_throw _
      · exact only_pure _
      · dsimp only
        split
        · exact only_throw _
        · exact only_bind (only_fs rfl) fun _ => ih _

theorem download_uncommitted (artifact : Artifact) :
    Uncommitted (download installer loc artifact) := by
  unfold download
  split
  · exact only_invalid _
  · refine only_bind (follow_redirects_uncommitted _ _ _) fun _ => ?_
    refine only_bind (only_lift _) fun _ => ?_
    refine only_bind create_new_contained_file_plain.uncommitted fun _ => ?_
    refine only_bind (receive_body_uncommitted _ _ _ _) fun _ => ?_
    exact check_body_only rfl rfl revalidate_contained_path_plain.uncommitted

/-- Downloads do not belong to the commit phase. -/
theorem download_artifacts_uncommitted (artifacts : List Artifact) :
    Uncommitted (downloadArtifacts installer loc artifacts) := by
  induction artifacts with
  | nil => exact only_pure _
  | cons artifact rest ih =>
      refine only_bind create_contained_parent_directories_plain.uncommitted fun _ => ?_
      exact only_bind (download_uncommitted installer artifact) fun _ => ih

end Footprints

/-! ## The transaction -/

section Transaction

variable {obeys : (op : FsOp) → op.Reply → Prop} {events : List FsEvent}
  {installer : Installer} {manifest : Manifest} {loc : Loc}

/-- Downloads, artifact by artifact; the first that fails is the last. -/
inductive Downloads (installer : Installer) :
    List Artifact → List FsEvent → Except Error Unit → Prop where
  | nil : Downloads installer [] [] (.ok ())
  | failed {artifact : Artifact} {rest : List Artifact} {events : List FsEvent} {error : Error}
      (hlaw : DownloadLaw installer artifact (installer.options.maxRedirects + 1) events
        (.error error)) : Downloads installer (artifact :: rest) events (.error error)
  | cons {artifact : Artifact} {rest : List Artifact} {first later : List FsEvent}
      {result : Except Error Unit}
      (hlaw : DownloadLaw installer artifact (installer.options.maxRedirects + 1) first (.ok ()))
      (hrest : Downloads installer rest later result) :
      Downloads installer (artifact :: rest) (first ++ later) result

theorem download_artifacts_ran {artifacts : List Artifact} {result : Except Error Unit}
    (h : Ran obeys (downloadArtifacts installer loc artifacts).run events result) :
    Downloads installer artifacts events result := by
  induction artifacts generalizing events with
  | nil =>
      obtain ⟨rfl, rfl⟩ := Ran.of_pure h
      exact .nil
  | cons artifact rest ih =>
      have hstill : Still (createContainedParentDirectories loc artifact.relative) := by
        refine only_bind securely_open_parent_still fun _ => ?_
        refine only_bind reject_reparse_components_still fun _ => ?_
        exact only_bind (only_path_metadata rfl) fun _ => only_fail_if _ _
      rcases Ran.of_bind_e h with ⟨error, rfl, hparents⟩ | ⟨_, later, _, rfl, hparents, hlater⟩
      · exact .failed (.failed (.of_moved (still_moved hstill hparents) .nil))
      have hquiet := still_moved hstill hparents
      rcases Ran.of_bind_e hlater with ⟨error, rfl, hfirst⟩ | ⟨_, others, _, rfl, hfirst, hothers⟩
      · refine .failed (.of_moved ?_ (download_ran hfirst))
        rw [moved_append, hquiet]
        rfl
      · rw [← List.append_assoc]
        refine .cons (.of_moved ?_ (download_ran hfirst)) (ih hothers)
        rw [moved_append, hquiet]
        rfl

/-- All requests of the downloads go to allowed origins, and there are at most so many for each
artifact. -/
theorem Downloads.requests {artifacts : List Artifact} {result : Except Error Unit}
    (h : Downloads installer artifacts events result) :
    (requests events).length ≤ artifacts.length * (installer.options.maxRedirects + 1) ∧
      ∀ url ∈ requests events, installer.options.Allows url := by
  induction h with
  | nil => exact ⟨Nat.zero_le _, fun _ hmem => absurd hmem List.not_mem_nil⟩
  | failed hlaw =>
      refine ⟨Nat.le_trans hlaw.count ?_, hlaw.allowed⟩
      rw [List.length_cons, Nat.add_mul, Nat.one_mul]
      exact Nat.le_add_left _ _
  | cons hlaw _ ih =>
      constructor
      · have hcount := hlaw.count
        rw [requests_append, List.length_append, List.length_cons, Nat.add_mul, Nat.one_mul,
          Nat.add_comm]
        exact Nat.add_le_add ih.1 hcount
      · intro url hmem
        rw [requests_append] at hmem
        cases List.mem_append.mp hmem with
        | inl hin => exact hlaw.allowed url hin
        | inr hin => exact ih.2 url hin

/-- Events of code that neither asks a server nor belongs to the commit phase. -/
def PlainEvents (events : List FsEvent) : Prop :=
  ∀ event ∈ events, event.op.asks = false ∧ event.op.commits = false

/-- The course of an installation: no download was begun, a download failed and nothing of the
commit phase was reached, or all downloads succeeded before anything of the commit phase. -/
inductive Course (installer : Installer) (manifest : Manifest) :
    List FsEvent → Except Error ModelStatus → Prop where
  | undownloaded {events : List FsEvent} {result : Except Error ModelStatus}
      (h : PlainEvents events) : Course installer manifest events result
  | failed {before downloads after : List FsEvent} {cause error : Error}
      (hbefore : PlainEvents before)
      (hdownloads : Downloads installer manifest.artifacts downloads (.error cause))
      (huncommitted : ∀ event ∈ downloads, event.op.commits = false) (hafter : PlainEvents after) :
      Course installer manifest (before ++ downloads ++ after) (.error error)
  | downloaded {before downloads after : List FsEvent} {result : Except Error ModelStatus}
      (hbefore : PlainEvents before)
      (hdownloads : Downloads installer manifest.artifacts downloads (.ok ()))
      (huncommitted : ∀ event ∈ downloads, event.op.commits = false)
      (hafter : ∀ event ∈ after, event.op.asks = false) :
      Course installer manifest (before ++ downloads ++ after) result

theorem PlainEvents.append {before after : List FsEvent} (h : PlainEvents before)
    (hafter : PlainEvents after) : PlainEvents (before ++ after) := by
  intro event hmem
  cases List.mem_append.mp hmem with
  | inl hin => exact h event hin
  | inr hin => exact hafter event hin

/-- Code that asks no server makes no request. -/
theorem silent_requests (h : ∀ event ∈ events, event.op.asks = false) : requests events = [] := by
  refine List.flatMap_eq_nil_iff.mpr ?_
  rintro ⟨op, reply⟩ hmem
  have hsilent := h _ hmem
  cases op <;> first | rfl | cases hsilent

theorem PlainEvents.requests (h : PlainEvents events) : requests events = [] :=
  silent_requests fun event hmem => (h event hmem).1

/-- Only the downloads of an installation make requests. -/
theorem Course.allowed {result : Except Error ModelStatus}
    (h : Course installer manifest events result) :
    ∀ url ∈ EmbeddingServer.requests events, installer.options.Allows url := by
  intro url hmem
  cases h with
  | undownloaded hplain =>
      rw [hplain.requests] at hmem
      cases hmem
  | failed hbefore hdownloads _ hafter =>
      rw [requests_append, requests_append, hbefore.requests, hafter.requests, List.nil_append,
        List.append_nil] at hmem
      exact hdownloads.requests.2 url hmem
  | downloaded hbefore hdownloads _ hafter =>
      rw [requests_append, requests_append, hbefore.requests, silent_requests hafter,
        List.nil_append, List.append_nil] at hmem
      exact hdownloads.requests.2 url hmem

/-- The part of the installation under its lock. -/
theorem install_locked_ran {result : Except Error (Option ModelStatus)}
    (h : Ran obeys (installLocked installer manifest).run events result) :
    PlainEvents events ∨ ∃ before downloads after, events = before ++ downloads ++ after ∧
      PlainEvents before ∧ (∀ event ∈ downloads, event.op.commits = false) ∧
      ((∃ cause, result = .error cause ∧ after = [] ∧
          Downloads installer manifest.artifacts downloads (.error cause)) ∨
        Downloads installer manifest.artifacts downloads (.ok ()) ∧
          ∀ event ∈ after, event.op.asks = false) := by
  rcases Ran.of_bind_e h with ⟨error, rfl, hrepair⟩ | ⟨repairs, later, _, rfl, hrepair, hlater⟩
  · exact .inl (hrepair.all reconcile_repair_plain)
  have hrepairs : PlainEvents repairs := hrepair.all reconcile_repair_plain
  rcases Ran.of_bind_e hlater with
    ⟨error, rfl, hstatus⟩ | ⟨looks, rest, existing, rfl, hstatus, hrest⟩
  · exact .inl (hrepairs.append (hstatus.all (status_with_cancel_plain polls_flag)))
  have hlooks : PlainEvents looks := hstatus.all (status_with_cancel_plain polls_flag)
  split at hrest
  · obtain ⟨rfl, _⟩ := Ran.of_pure hrest
    rw [List.append_nil]
    exact .inl (hrepairs.append hlooks)
  rcases Ran.of_bind_e hrest with ⟨error, rfl, hprepare⟩ | ⟨stages, tail, _, rfl, hprepare, htail⟩
  · exact .inl (hrepairs.append (hlooks.append (hprepare.all prepare_staging_plain)))
  have hstages : PlainEvents stages := hprepare.all prepare_staging_plain
  right
  have hbefore := hrepairs.append (hlooks.append hstages)
  rcases Ran.of_bind_e htail with ⟨error, rfl, hload⟩ | ⟨downloads, after, _, rfl, hload, hafter⟩
  · refine ⟨repairs ++ (looks ++ stages), tail, [], by simp, hbefore,
      hload.all (download_artifacts_uncommitted installer _), .inl ⟨error, rfl, rfl, ?_⟩⟩
    exact download_artifacts_ran hload
  · refine ⟨repairs ++ (looks ++ stages), downloads, after, by simp, hbefore,
      hload.all (download_artifacts_uncommitted installer _),
      .inr ⟨download_artifacts_ran hload, ?_⟩⟩
    have hsilent : Silent (do
        stopIfCancelled
        let crossed ← fs .beginCommit
        failIf (crossed = false) .cancelled
        commitInstall installer manifest
        pure none : StoreM (Option ModelStatus)) := by
      refine only_bind stop_if_cancelled_plain.silent fun _ => only_bind (only_fs rfl) fun _ => ?_
      refine only_bind (only_fail_if _ _) fun _ => ?_
      exact only_bind (commit_install_silent installer manifest) fun _ => only_pure _
    exact hafter.all hsilent

/-- A body that runs under a lock: the handle is dropped after it, and an error of it stays one. -/
theorem ran_holding {α : Type} {key : String} {handle : Nat} {body : StoreM α}
    {result : Except Error α} (h : Ran obeys (holding key handle body).run events result) :
    ∃ inside after inner, events = inside ++ after ∧ Ran obeys body.run inside inner ∧
      PlainEvents after ∧ (result = inner ∨ ∃ error, result = .error error) := by
  rcases Ran.of_bind_e h with ⟨error, rfl, hbody⟩ | ⟨inside, after, inner, rfl, hbody, hafter⟩
  · obtain ⟨_, hnever, _⟩ := ran_attempt hbody
    cases hnever
  obtain ⟨outcome, houtcome, hbody⟩ := ran_attempt hbody
  obtain rfl := Except.ok.inj houtcome
  have hunlock : ∀ reply : (FsOp.unlock key handle).Reply,
      PlainEvents [⟨.unlock key handle, reply⟩] := by
    intro reply event hmem
    rw [List.mem_singleton.mp hmem]
    exact ⟨rfl, rfl⟩
  rcases Ran.of_bind_e hafter with ⟨error, rfl, hdrop⟩ | ⟨_, rest, _, rfl, hdrop, hrest⟩
  · obtain ⟨reply, _, rfl, _⟩ := ran_fs hdrop
    exact ⟨inside, _, inner, rfl, hbody, hunlock reply, .inr ⟨error, rfl⟩⟩
  · obtain ⟨reply, _, rfl, _⟩ := ran_fs hdrop
    obtain ⟨rfl, rfl⟩ := ran_lift hrest
    exact ⟨inside, _, _, rfl, hbody, hunlock reply, .inl rfl⟩

/-- Dropping the lock and reporting the status. -/
theorem Course.around {before inside after : List FsEvent}
    {locked : Except Error (Option ModelStatus)} {result : Except Error ModelStatus}
    (hbefore : PlainEvents before) (hafter : PlainEvents after)
    (herror : ∀ error, locked = .error error → ∃ error, result = .error error)
    (h : PlainEvents inside ∨ ∃ early downloads late, inside = early ++ downloads ++ late ∧
      PlainEvents early ∧ (∀ event ∈ downloads, event.op.commits = false) ∧
      ((∃ cause, locked = .error cause ∧ late = [] ∧
          Downloads installer manifest.artifacts downloads (.error cause)) ∨
        Downloads installer manifest.artifacts downloads (.ok ()) ∧
          ∀ event ∈ late, event.op.asks = false)) :
    Course installer manifest (before ++ inside ++ after) result := by
  rcases h with hplain | ⟨early, downloads, late, rfl, hearly, huncommitted, hcases⟩
  · exact .undownloaded ((hbefore.append hplain).append hafter)
  · have hsplit : before ++ (early ++ downloads ++ late) ++ after =
        (before ++ early) ++ downloads ++ (late ++ after) := by
      simp only [List.append_assoc]
    rw [hsplit]
    rcases hcases with ⟨cause, rfl, rfl, hdownloads⟩ | ⟨hdownloads, hlate⟩
    · obtain ⟨error, rfl⟩ := herror cause rfl
      exact .failed (hbefore.append hearly) hdownloads huncommitted hafter
    · refine .downloaded (hbefore.append hearly) hdownloads huncommitted ?_
      intro event hmem
      cases List.mem_append.mp hmem with
      | inl hin => exact hlate event hin
      | inr hin => exact (hafter event hin).1

/-- `Installer::install_transaction`. -/
theorem install_transaction_ran {result : Except Error ModelStatus}
    (h : Ran obeys (installTransaction installer manifest).run events result) :
    Course installer manifest events result ∧
      (installer.options.offline = true → PlainEvents events) := by
  have hplain : PlainEvents events → Course installer manifest events result ∧
      (installer.options.offline = true → PlainEvents events) :=
    fun hevents => ⟨.undownloaded hevents, fun _ => hevents⟩
  have hnone : PlainEvents [] := fun _ hmem => absurd hmem List.not_mem_nil
  rcases Ran.of_bind_e h with ⟨error, rfl, hvalid⟩ | ⟨_, afterValid, _, rfl, hvalid, hlater⟩
  · obtain ⟨rfl, _⟩ := ran_lift hvalid
    exact hplain hnone
  obtain ⟨rfl, _⟩ := ran_lift hvalid
  rcases Ran.of_bind_e hlater with ⟨error, rfl, hsizes⟩ | ⟨_, afterSizes, _, rfl, hsizes, hrest⟩
  · obtain ⟨rfl, _⟩ := ran_lift hsizes
    exact hplain hnone
  obtain ⟨rfl, _⟩ := ran_lift hsizes
  rcases Ran.of_bind_e hrest with ⟨error, rfl, hstatus⟩ | ⟨looks, tail, found, rfl, hstatus, htail⟩
  · exact hplain (hstatus.all (status_with_cancel_plain polls_flag))
  have hlooks : PlainEvents looks := hstatus.all (status_with_cancel_plain polls_flag)
  split at htail
  · obtain ⟨rfl, _⟩ := Ran.of_pure htail
    exact hplain (hnone.append (hnone.append (hlooks.append hnone)))
  rcases Ran.of_bind_e htail with ⟨error, rfl, hoffline⟩ | ⟨_, online, _, rfl, hoffline, honline⟩
  · obtain ⟨rfl, _⟩ := ran_fail_if hoffline
    exact hplain (hlooks.append hnone)
  obtain ⟨rfl, ⟨_, hnever⟩ | ⟨hallowed, _⟩⟩ := ran_fail_if hoffline
  · cases hnever
  refine ⟨?_, fun hoff => absurd hoff hallowed⟩
  rcases Ran.of_bind_e honline with ⟨error, rfl, hstop⟩ | ⟨polls, going, _, rfl, hstop, hgoing⟩
  · exact .undownloaded (hlooks.append (hstop.all stop_if_cancelled_plain))
  have hpolls : PlainEvents polls := hstop.all stop_if_cancelled_plain
  rcases Ran.of_bind_e hgoing with ⟨error, rfl, hlock⟩ | ⟨locks, held, handle, rfl, hlock, hheld⟩
  · exact .undownloaded (hlooks.append (hpolls.append (hlock.all acquire_install_lock_plain)))
  have hlocks : PlainEvents locks := hlock.all acquire_install_lock_plain
  have hbefore := hlooks.append (hpolls.append hlocks)
  rcases Ran.of_bind_e hheld with ⟨error, rfl, hholding⟩ | ⟨_, ends, _, rfl, hholding, hends⟩
  · obtain ⟨inside, after, inner, rfl, hlocked, hafter, _⟩ := ran_holding hholding
    have hcourse := (install_locked_ran hlocked)
    have hsplit : [] ++ ([] ++ (looks ++ ([] ++ (polls ++ (locks ++ (inside ++ after)))))) =
        (looks ++ (polls ++ locks)) ++ inside ++ after := by
      simp only [List.nil_append, List.append_assoc]
    rw [hsplit]
    exact .around hbefore hafter (fun _ _ => ⟨error, rfl⟩) hcourse
  · obtain ⟨inside, after, inner, rfl, hlocked, hafter, hsame⟩ := ran_holding hholding
    have hends : PlainEvents ends := by
      split at hends
      · rw [(Ran.of_pure hends).1]
        exact hnone
      · exact hends.all (status_with_cancel_plain polls_never)
    have hsplit : [] ++ ([] ++ (looks ++ ([] ++ (polls ++ (locks ++ (inside ++ after ++ ends)))))) =
        (looks ++ (polls ++ locks)) ++ inside ++ (after ++ ends) := by
      simp only [List.nil_append, List.append_assoc]
    rw [hsplit]
    refine .around hbefore (hafter.append hends) ?_ (install_locked_ran hlocked)
    -- a part under the lock that failed did not return
    rintro error rfl
    rcases hsame with hnever | ⟨_, hnever⟩ <;> cases hnever

end Transaction

/-! ## The staged file -/

section StagedFile

variable {installer : Installer} {loc : Loc} {events : List FsEvent} {s s' : Cache}

theorem any_reply (fault : Choice) (s : Cache) (op : FsOp) : AnyReply op (respond fault s op).1 :=
  trivial

/-- The staged file holds what was received. -/
theorem store_body_file {artifact : Artifact}
    (h : RanFrom respond (storeBody installer loc artifact).run s events (.ok ()) s') :
    HasFile loc artifact.relative (bodyBytes events) s' := by
  rw [store_body_eq] at h
  obtain ⟨creates, later, _, created, rfl, hcreate, hlater⟩ := h.of_ok
  obtain ⟨_, _, hempty⟩ := hcreate.spec (create_new_contained_file_spec artifact.relative s) rfl
  have hcreates :=
    body_bytes_congr (still_moved create_new_contained_file_still (hcreate.ran any_reply))
  obtain ⟨pieces, rest, received, stored, rfl, hreceive, hrest⟩ := hlater.of_ok
  obtain ⟨hfile, _⟩ := hreceive.spec (receive_body_spec (installer.chunks + 1) hempty) received rfl
  obtain ⟨_, _, hall⟩ := receive_body_ran (hreceive.ran any_reply) (Nat.zero_le _)
  obtain ⟨hreceived, _⟩ := hall received rfl
  -- the checks that follow only look at the tree
  have hbuilds : Only (FsOp.Builds loc) (checkBody installer loc artifact received) :=
    check_body_only rfl rfl (revalidate_contained_path_only _)
  have hrests := body_bytes_congr (still_moved check_body_still (hrest.ran any_reply))
  have hkept := hrest.spec (hbuilds.spec_kept stored)
  have hbody : bodyBytes (creates ++ (pieces ++ rest)) = received := by
    rw [body_bytes_append, body_bytes_append, hcreates, hrests, hreceived]
    simp
  rw [hbody]
  exact hkept _ _ hfile

/-- `Installer::download`, which runs alone. -/
theorem download_file {artifact : Artifact}
    (h : RanFrom respond (download installer loc artifact).run s events (.ok ()) s') :
    HasFile loc artifact.relative (bodyBytes events) s' := by
  unfold download at h
  split at h
  · cases h.of_done.2.1
  · obtain ⟨follows, later, response, answered, rfl, hfollow, hlater⟩ := h.of_ok
    have hfollows := (follow_redirects_ran (hfollow.ran any_reply)).body
    obtain ⟨checks, body, _, checked, rfl, hcheck, hbody⟩ := hlater.of_ok
    obtain ⟨rfl, _⟩ := ran_lift (hcheck.ran any_reply)
    rw [body_bytes_append, hfollows]
    exact store_body_file hbody

end StagedFile

/-- The download policy. Every request of an installation goes to an allowed origin, there are none
when the installer is offline, and the commit phase comes after the downloads of all artifacts or
not at all (`Course`). A download sends at most one request more than redirects are allowed, and it
never writes more than the declared size or the absolute bound. It succeeds only if what it received
has the declared length and digest, however the body was split, and then the staged file holds
exactly that. -/
theorem download_policy (installer : Installer) (manifest : Manifest) :
    (∀ answers : Nat → (op : FsOp) → op.Reply,
      let run := play answers (installTransaction installer manifest).run
      (∀ url ∈ requests run.1, installer.options.Allows url) ∧
        (installer.options.offline = true → requests run.1 = []) ∧
        Course installer manifest run.1 run.2) ∧
    (∀ (loc : Loc) (artifact : Artifact) (answers : Nat → (op : FsOp) → op.Reply),
      let run := play answers (download installer loc artifact).run
      (requests run.1).length ≤ installer.options.maxRedirects + 1 ∧
        (∀ url ∈ requests run.1, installer.options.Allows url) ∧
        (writtenBytes run.1).length ≤
          min artifact.size.toNat installer.options.maxArtifactBytes ∧
        (run.2 = .ok () → writtenBytes run.1 = bodyBytes run.1 ∧
          (bodyBytes run.1).length = artifact.size.toNat ∧
          installer.store.ext.sha256 (bodyBytes run.1) = artifact.sha256)) ∧
    (∀ (loc : Loc) (artifact : Artifact) (choices : Nat → Choice) (s : Cache),
      let run := record respond choices (download installer loc artifact).run s
      run.2.1 = .ok () → HasFile loc artifact.relative (bodyBytes run.1) run.2.2) := by
  refine ⟨?_, ?_, ?_⟩
  · intro answers
    have hany : ∀ n op, AnyReply op (answers n op) := fun _ _ => trivial
    obtain ⟨hcourse, hoffline⟩ :=
      install_transaction_ran (ran_play hany (installTransaction installer manifest).run)
    exact ⟨hcourse.allowed, fun hoff => (hoffline hoff).requests, hcourse⟩
  · intro loc artifact answers
    have hany : ∀ n op, AnyReply op (answers n op) := fun _ _ => trivial
    have hlaw := download_ran (ran_play hany (download installer loc artifact).run)
    exact ⟨hlaw.count, hlaw.allowed, hlaw.written,
      fun hok => ⟨hlaw.stored hok, hlaw.size hok, hlaw.digest hok⟩⟩
  · intro loc artifact choices s run hok
    have hrun : RanFrom respond (download installer loc artifact).run s run.1 run.2.1 run.2.2 :=
      ran_from_record choices _ s
    rw [hok] at hrun
    exact download_file hrun

end EmbeddingServer
