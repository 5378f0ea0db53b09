import VmProxyAuth.Gateway.Handler
import VmProxyAuth.Proxy.Attempts

/-!
# The bodies sent upstream

A client's body is a reader that the gateway may read once to find a query and that every
upstream request for it then reads and closes.  The upstream requests all carry the
client's bytes exactly when there are none, or when the gateway did not lose them and
every request but the last left them unread (`sent_body_iff`).
-/

namespace VmProxyAuth

namespace Gateway

open Http Proxy

/-- Whether the gateway reads the body of a request to find a query. -/
def readsForm (r : Request) : Bool :=
  isQueryEndpoint r.url.path && decide (r.url.query.get (str "query") = []) &&
    isForm r.method r.header

/-- The gateway reads the body and puts a buffer with its bytes in its place. -/
def bodyRestored (r : Request) : Bool := readsForm r && r.body.readAll.isSome

/-- The gateway fails to read the body and leaves it as it is then. -/
def bodyLost (r : Request) : Bool := readsForm r && r.body.readAll.isNone

/-- The body handed to the proxy. -/
def handedOver (r : Request) : Body :=
  if readsForm r then
    match r.body.readAll with
    | none => r.body.advance r.body.rest.length
    | some bodyBytes => Body.buffer bodyBytes
  else r.body

/-- The body of a request after its query has been extracted. -/
theorem extractQuery_body {r : Request} (hpath : isQueryEndpoint r.url.path) :
  (extractQuery r).2.body = handedOver r
  := by
  rw [extractQuery, handedOver, readsForm, hpath]
  by_cases hquery : r.url.query.get (str "query") = []
  · cases hform : isForm r.method r.header with
    | false => simp [hquery]
    | true =>
      cases hread : r.body.readAll with
      | none => simp [hquery]
      | some bodyBytes =>
        simp only [hquery]
        rcases Url.parseQuery bodyBytes with ⟨bodyValues, _ | _⟩
        · rfl
        · rfl
  · simp [hquery]

/-- The body of a forwarded request. -/
theorem serveUser_body {S : Tenant.Service} {user : User} {r : Request} {req : ProxyRequest}
    (hreq : serveUser S user r = .ok req) :
  req.originalRequest.body = handedOver r
  := by
  obtain ⟨-, -, hfilter, -⟩ := serveUser_eq_ok hreq
  rw [processQueryFiltering] at hfilter
  cases hpath : isQueryEndpoint r.url.path with
  | false =>
    rw [hpath] at hfilter
    have hsame := (Prod.mk.inj (Except.ok.inj hfilter)).2
    rw [← hsame, handedOver, readsForm, hpath]
    rfl
  | true =>
    rw [hpath, if_neg (by decide)] at hfilter
    dsimp only at hfilter
    rw [← extractQuery_body hpath]
    split at hfilter
    · rw [← (Prod.mk.inj (Except.ok.inj hfilter)).2]
    · split at hfilter
      · cases hfilter
      · rw [← (Prod.mk.inj (Except.ok.inj hfilter)).2]

/-- A body that is lost holds no more bytes. -/
theorem content_handedOver_of_lost {r : Request} (h : bodyLost r = true) :
  (handedOver r).content = []
  := by
  rw [bodyLost, Bool.and_eq_true, Option.isNone_iff_eq_none] at h
  rw [handedOver, if_pos h.1, h.2]
  cases hclosed : r.body.closed with
  | true => simp [Body.advance, Body.content, hclosed]
  | false => simp [Body.advance, Body.content, hclosed]

/-- A body that is not lost holds the client's bytes, and closing it has an effect unless it
has been restored. -/
theorem handedOver_of_not_lost {r : Request} (h : bodyLost r = false) :
  (handedOver r).content = r.body.content ∧
    ((handedOver r).closable = false ↔ bodyRestored r = true ∨ r.body.closable = false)
  := by
  rw [bodyLost] at h
  rw [handedOver, bodyRestored]
  cases hreads : readsForm r with
  | false => simp
  | true =>
    cases hread : r.body.readAll with
    | none =>
      rw [hreads, hread] at h
      cases h
    | some bodyBytes =>
      rw [Body.readAll] at hread
      split at hread
      · cases hread
      · rename_i hok
        rw [Bool.or_eq_true, not_or] at hok
        cases hread
        simp [Body.buffer, Body.content, hok.1]

/-- All upstream requests for a client's request, in the first call and in the later ones
with the request taken from the queue, carry the client's bytes exactly if none is issued,
if there are no bytes, or if the gateway has not lost them and every request but the last
reads none of them and the body is one that closing has no effect on. -/
theorem sent_body_iff
    (S : Tenant.Service) (urlParse : GoString → Except GoError URL) (user : User) (r : Request)
    (req : ProxyRequest) (hreq : serveUser S user r = .ok req) (retries : ℤ)
    (calls : List (ℕ → Attempt)) :
  (∀ out ∈ (forwardAgain urlParse retries req calls
      (Trace.start req.originalRequest.body)).sent, out.body.content = r.body.content) ↔
    issued urlParse retries req calls = [] ∨ r.body.content = [] ∨
      bodyLost r = false ∧ ∀ n ∈ (issued urlParse retries req calls).dropLast,
        n = 0 ∧ (bodyRestored r = true ∨ r.body.closable = false)
  := by
  have hcarried := forwardAgain_spec urlParse retries req calls
    (Trace.start req.originalRequest.body)
  rw [serveUser_body hreq] at hcarried ⊢
  have hsent : (∀ out ∈ (forwardAgain urlParse retries req calls
      (Trace.start (handedOver r))).sent, out.body.content = r.body.content) ↔
      ∀ bytes ∈ (handedOver r).carried (issued urlParse retries req calls),
        bytes = r.body.content := by
    rw [← show _ = (handedOver r).carried _ from hcarried, Trace.carried, List.forall_mem_map]
  rw [hsent]
  cases hlost : bodyLost r with
  | true =>
    have hnil := content_handedOver_of_lost hlost
    have hall := ((handedOver r).carried_eq_iff (issued urlParse retries req calls)).mpr
      (Or.inl hnil)
    rw [hnil] at hall
    cases hissued : issued urlParse retries req calls with
    | nil => simp [Body.carried]
    | cons n ns =>
      rw [hissued] at hall
      constructor
      · intro h
        right
        left
        rw [← h _ List.mem_cons_self, hnil]
      · rintro (h | h | h)
        · cases h
        · rw [h]
          apply hall
        · cases h.1
  | false =>
    obtain ⟨hcontent, hclosable⟩ := handedOver_of_not_lost hlost
    rw [← hcontent, Body.carried_eq_iff]
    simp only [hclosable, true_and]
    constructor
    · intro h
      exact Or.inr h
    · rintro (h | h)
      · rw [h]
        simp
      · exact h

/-! ### A write that is retried -/

/-- A write of two bytes. -/
def writeRequest : Request where
  method := str "POST"
  url := ⟨[], [], str "/api/v1/write", []⟩
  header := ∅
  body := Body.received [1, 2]

/-- The first attempt is answered with an error after the body has been read and closed.  The later
ones find it closed, and are given up. -/
def errorThenClosed (attempt : ℕ) : Attempt where
  cancelled := false
  selection := .ok (str "http://vm:8480")
  consumed := if attempt = 0 then 2 else 0
  reply :=
    if attempt = 0 then .answered ⟨503, ∅, []⟩
    else .failed (.errorf "http: invalid Read on closed Body" [])

/-- Every attempt is answered with success. -/
def success (_ : ℕ) : Attempt where
  cancelled := false
  selection := .ok (str "http://vm:8480")
  consumed := 2
  reply := .answered ⟨204, ∅, []⟩

/-- A write that is retried is issued without its bytes. -/
theorem retried_write_empty :
  ∃ req, serveUser plainService accountUser writeRequest = .ok req ∧
    ¬ ∀ out ∈ (forwardAgain oneHost 3 req [errorThenClosed]
      (Trace.start req.originalRequest.body)).sent, out.body.content = writeRequest.body.content
  := by
  refine ⟨_, rfl, ?_⟩
  intro h
  have hempty := h _ (List.mem_of_getElem? (i := 1) rfl)
  revert hempty
  decide

/-- A write that succeeds at the first attempt carries the client's bytes. -/
theorem direct_write_complete :
  ∃ req, serveUser plainService accountUser writeRequest = .ok req ∧
    ∀ out ∈ (forwardAgain oneHost 3 req [success]
      (Trace.start req.originalRequest.body)).sent, out.body.content = writeRequest.body.content
  := ⟨_, rfl, (sent_body_iff plainService oneHost accountUser writeRequest _ rfl 3
      [success]).mpr (by decide +kernel)⟩

end Gateway

end VmProxyAuth
