import VmProxyAuth.Lib.Url

/-!
# Requests

The part of `net/http` a proxy uses to read a request and to build another one.  Header
names are kept in their canonical case; a request body is a reader, so that what it
still holds depends on who has read it or closed it before; and a request is made from
the text of its URL, which cuts the query string at the first `#`.
-/

namespace Http

/-! ### Headers -/

/-- The bytes that can occur in a header name. -/
def validHeaderFieldByte (b : UInt8) : Bool :=
  (48 ≤ b && b ≤ 57) || (65 ≤ b && b ≤ 90) || (97 ≤ b && b ≤ 122) ||
    decide (b ∈ str "!#$%&'*+-.^_`|~")

/-- A header name with its first letter and every letter after a hyphen in upper case,
the other letters in lower case; `upper` tells the case of the next letter. -/
def canonicalCase : Bool → GoString → GoString
  | _, [] => []
  | upper, b :: s =>
    let c :=
      if upper && 97 ≤ b && b ≤ 122 then b - 32
      else if !upper && 65 ≤ b && b ≤ 90 then b + 32
      else b
    c :: canonicalCase (c == 45) s

/-- `http.CanonicalHeaderKey(s)`: a name with a byte that cannot occur in a header name
stays as it is. -/
def canonicalHeaderKey (s : GoString) : GoString :=
  if s.all validHeaderFieldByte then canonicalCase true s else s

/-- `http.Header`. -/
abbrev Header : Type := MultiMap GoString GoString

namespace Header

/-- `header.Get(name)`: the first value, empty if there is none. -/
def get (h : Header) (name : GoString) : GoString :=
  (h.values (canonicalHeaderKey name)).headD []

/-- `header.Set(name, value)`. -/
def set (h : Header) (name value : GoString) : Header :=
  MultiMap.set h (canonicalHeaderKey name) value

/-- The values of a header with their canonical names, in the order of a `range` over
the header. -/
def fields (h : Header) : List (GoString × GoString) :=
  h.entries.flatMap (fun e => e.2.map (Prod.mk (canonicalHeaderKey e.1)))

/-- The values whose canonical name is `name`. -/
def named (h : Header) (name : GoString) : List GoString := MultiMap.pairsAt name h.fields

/-- `header.Add` of every value of `src`, in the order of a `range` over it. -/
def addAll (h src : Header) : Header := MultiMap.addAll h src.fields

theorem values_addAll_empty (src : Header) (name : GoString) :
  (addAll ∅ src).values name = src.named name
  := by
  rw [addAll, MultiMap.values_addAll, MultiMap.values_empty, List.nil_append, named]

theorem values_set (h : Header) (name value name' : GoString) :
  (set h name value).values name'
    = if name' = canonicalHeaderKey name then [value] else h.values name'
  := MultiMap.values_set h name' (canonicalHeaderKey name) value

end Header

/-! ### Bodies -/

/-- A request body: the bytes not read yet, whether reading them ends in an error,
whether closing it has an effect, and whether it has been closed.  The body the server
hands to a handler cannot be read once closed; closing a buffer wrapped by
`io.NopCloser` has no effect. -/
structure Body where
  rest : GoString
  fails : Bool
  closable : Bool
  closed : Bool
  deriving DecidableEq, Repr

namespace Body

/-- The body of a request the server has received. -/
def received (content : GoString) : Body := ⟨content, false, true, false⟩

/-- `io.NopCloser(bytes.NewBuffer(content))`. -/
def buffer (content : GoString) : Body := ⟨content, false, false, false⟩

/-- The bytes that reading the body to its end delivers.  Of a closed body these are none, and
reading it is an error: a request with it carries no bytes, and its sender gives it up unless it is
answered first. -/
def content (b : Body) : GoString := if b.closed then [] else b.rest

/-- `io.ReadAll(body)`: the bytes, if reading ends without an error. -/
def readAll (b : Body) : Option GoString :=
  if b.closed || b.fails then none else some b.rest

/-- The body after `n` bytes of it have been read. -/
def advance (b : Body) (n : ℕ) : Body :=
  if b.closed then b else { b with rest := b.rest.drop n }

/-- The body after `body.Close()`. -/
def close (b : Body) : Body := { b with closed := b.closed || b.closable }

/-- The body after a request with it has been sent, which read `n` bytes of it and closed
it. -/
def send (b : Body) (n : ℕ) : Body := (b.advance n).close

/-- The bytes carried by requests sent one after the other with the same body, where the
numbers tell how many bytes sending each of them reads. -/
def carried : Body → List ℕ → List GoString
  | _, [] => []
  | b, n :: ns => b.content :: (b.send n).carried ns

/-- The body after these requests. -/
def sendAll (b : Body) (ns : List ℕ) : Body := ns.foldl send b

theorem carried_append (ms ns : List ℕ) (b : Body) :
  b.carried (ms ++ ns) = b.carried ms ++ (b.sendAll ms).carried ns
  := by
  induction ms generalizing b with
  | nil => rfl
  | cons m ms ih =>
    rw [List.cons_append, carried, ih, carried, List.cons_append]
    rfl

/-- An exhausted body stays exhausted. -/
theorem content_send_of_content_eq_nil {b : Body} (h : b.content = []) (n : ℕ) :
  (b.send n).content = []
  := by
  rw [content] at h
  cases hclosed : b.closed with
  | true => simp [send, advance, close, content, hclosed]
  | false =>
    rw [hclosed, if_neg Bool.false_ne_true] at h
    simp [send, advance, close, content, hclosed, h]

/-- Sending leaves a body that still holds bytes as it is exactly if it reads none of them
and closing the body has no effect. -/
theorem content_send_eq_iff {b : Body} (h : b.content ≠ []) (n : ℕ) :
  (b.send n).content = b.content ↔ n = 0 ∧ b.closable = false
  := by
  cases hclosed : b.closed with
  | true =>
    rw [content, hclosed] at h
    exact absurd rfl h
  | false =>
    have hrest : b.content = b.rest := by
      rw [content, hclosed, if_neg Bool.false_ne_true]
    rw [hrest] at h ⊢
    cases hclosable : b.closable with
    | true => simp [send, advance, close, content, hclosed, hclosable, h, eq_comm]
    | false =>
      have hdrop : b.rest.drop n = b.rest ↔ n = 0 := by
        constructor
        · intro heq
          have hlength := congrArg List.length heq
          have hpos := List.length_pos_iff.mpr h
          rw [List.length_drop] at hlength
          omega
        · rintro rfl
          rfl
      simp [send, advance, close, content, hclosed, hclosable, hdrop]

theorem send_eq_self {b : Body} (h : b.closable = false) :
  b.send 0 = b
  := by
  cases b with
  | mk rest fails closable closed =>
    cases closed with
    | true => simp [send, advance, close]
    | false => simpa [send, advance, close] using h

/-- All requests carry the bytes the first one carries exactly if there are no such bytes,
or every request but the last reads nothing and closing the body has no effect. -/
theorem carried_eq_iff (b : Body) (ns : List ℕ) :
  (∀ bytes ∈ b.carried ns, bytes = b.content) ↔
    b.content = [] ∨ ∀ n ∈ ns.dropLast, n = 0 ∧ b.closable = false
  := by
  by_cases hcontent : b.content = []
  · simp only [hcontent, true_or, iff_true]
    induction ns generalizing b with
    | nil => simp [carried]
    | cons n ns ih =>
      rw [carried, List.forall_mem_cons]
      use hcontent
      apply ih
      apply content_send_of_content_eq_nil hcontent
  · simp only [hcontent, false_or]
    induction ns with
    | nil => simp [carried]
    | cons n ns ih =>
      cases ns with
      | nil => simp [carried]
      | cons m ns =>
        rw [List.dropLast_cons_cons, List.forall_mem_cons, carried, List.forall_mem_cons]
        constructor
        · rintro ⟨-, h⟩
          obtain ⟨rfl, hclosable⟩ := (content_send_eq_iff hcontent n).mp
            (h _ (List.mem_cons_self))
          use ⟨rfl, hclosable⟩
          rw [send_eq_self hclosable] at h
          apply ih.mp h
        · rintro ⟨⟨rfl, hclosable⟩, h⟩
          use rfl
          rw [send_eq_self hclosable]
          apply ih.mpr h

end Body

/-! ### Requests -/

/-- The part of `url.URL` that names the resource: the decoded path and the query string
as written. -/
structure URL where
  scheme : GoString
  host : GoString
  path : GoString
  rawQuery : GoString
  deriving DecidableEq, Repr

/-- `u.Query()`: the readable parameters of the query string. -/
def URL.query (u : URL) : Url.Values := (Url.parseQuery u.rawQuery).1

/-- Parsing the text of `u` again.  It fails if the query string contains a control
character, or if what follows a `#` in it is not a valid escaped fragment; otherwise the
query string ends before the first `#`. -/
def URL.reparse (u : URL) : Option URL :=
  if u.rawQuery.any (fun b => b < 32 || b == 127) then none
  else if (Url.queryUnescape (GoString.after 35 u.rawQuery)).isNone then none
  else some { u with rawQuery := GoString.before 35 u.rawQuery }

/-- A request, as a server receives it or a client sends it. -/
structure Request where
  method : GoString
  url : URL
  header : Header
  body : Body

/-- `http.NewRequestWithContext(ctx, method, u.String(), body)`: a request without
headers.  It fails if the method is not a token or the text of the URL cannot be
parsed. -/
def newRequest (method : GoString) (u : URL) (body : Body) : Option Request :=
  if method.all validHeaderFieldByte then
    u.reparse.map (fun u' => ⟨if method = [] then str "GET" else method, u', ∅, body⟩)
  else none

/-- A query string without `#` or control characters survives parsing the text again. -/
theorem URL.reparse_eq_some {u u' : URL} (h : u.reparse = some u') :
  u' = { u with rawQuery := GoString.before 35 u.rawQuery }
  := by
  rw [URL.reparse] at h
  split at h
  · cases h
  · split at h
    · cases h
    · exact (Option.some.inj h).symm

/-- What a request made by `newRequest` consists of. -/
theorem newRequest_eq_some {method : GoString} {u : URL} {body : Body} {r : Request}
    (h : newRequest method u body = some r) :
  r.method = (if method = [] then str "GET" else method) ∧
    r.url = { u with rawQuery := GoString.before 35 u.rawQuery } ∧ r.header = ∅ ∧ r.body = body
  := by
  rw [newRequest] at h
  split at h
  · obtain ⟨u', hu, rfl⟩ := Option.map_eq_some_iff.mp h
    use rfl, URL.reparse_eq_some hu
  · cases h

/-- A request is made in the same way whatever its body is. -/
theorem newRequest_body (method : GoString) (u : URL) (body body' : Body) :
  newRequest method u body' = (newRequest method u body).map (fun r => { r with body := body' })
  := by
  rw [newRequest, newRequest]
  split
  · rw [Option.map_map]
    rfl
  · rfl

/-- Whether a request carries a form: it is a POST whose content type is that of an
encoded form. -/
def isForm (method : GoString) (header : Header) : Bool :=
  method == str "POST" &&
    GoString.contains (header.get (str "Content-Type")) (str "application/x-www-form-urlencoded")

/-- The values of a parameter in the form a request carries. -/
def Request.formValues (r : Request) (k : GoString) : List GoString :=
  if isForm r.method r.header then (Url.parseQuery r.body.content).1.values k else []

example :
  canonicalHeaderKey (str "X-Tenant-ID") = str "X-Tenant-Id" ∧
    canonicalHeaderKey (str "x-prometheus-tenant") = str "X-Prometheus-Tenant"
  := by decide +kernel

end Http
