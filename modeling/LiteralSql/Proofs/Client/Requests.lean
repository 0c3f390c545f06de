import LiteralSql.Proofs.Load.Session

/-! The requests that arrive, and the answers that they get.

Whatever is sent, the session moves in one way only: each request that arrives
takes the next reply and is added to the log.
-/

set_option autoImplicit false

namespace LiteralSql

namespace Link

def Reaches (link : Link) (authority : Text) : Prop := ∃ replies, link = .scripted authority replies

def skip (count : Nat) : Link → Link
  | .offline => .offline
  | .scripted host replies => .scripted host (replies.drop count)

def reply : Link → Reply
  | .offline => .dropped
  | .scripted _ replies => replies.headD .exhausted

def remaining : Link → Nat
  | .offline => 0
  | .scripted _ replies => replies.length

@[simp] theorem skip_zero (link : Link) : link.skip 0 = link := by cases link <;> rfl

theorem skip_skip (link : Link) (first second : Nat) : (link.skip first).skip second = link.skip (first + second) := by
  cases link with
  | offline => rfl
  | scripted host replies => rw [skip, skip, skip, List.drop_drop]

theorem reaches_skip {link : Link} {authority : Text} (count : Nat) :
    (link.skip count).Reaches authority ↔ link.Reaches authority := by
  cases link with
  | offline => exact iff_of_false nofun nofun
  | scripted host replies => simp [Reaches, skip]

end Link

namespace Session

/-- The session behind these requests, each of which has taken a reply. -/
def receive (session : Session) (requests : List Request) : Session :=
  ⟨session.link.skip requests.length, session.log ++ requests⟩

@[simp] theorem receive_nil (session : Session) : session.receive [] = session := by
  rw [receive, List.length_nil, Link.skip_zero, List.append_nil]

theorem receive_receive (session : Session) (first second : List Request) :
    (session.receive first).receive second = session.receive (first ++ second) := by
  rw [receive, receive, receive, Link.skip_skip, List.append_assoc, List.length_append]

end Session

namespace Exchange

variable {α β : Type} {authority : Text} {request : Request} {session after : Session} {response : Response}

theorem on_lift (steps : StateM Session α) (next : α → Exchange β) (session : Session) :
    ((liftM steps : Exchange α) >>= next).on session = (next (steps session).1).on (steps session).2 := rfl

theorem roundTrip_reached (reached : session.link.Reaches authority) :
    roundTrip authority request session = (session.link.reply, session.receive [request]) := by
  obtain ⟨link, log⟩ := session
  obtain ⟨replies, rfl⟩ := reached
  cases replies <;> simp [roundTrip, Link.reply, Session.receive, Link.skip]

theorem roundTrip_unreached (unreached : ¬ session.link.Reaches authority) :
    roundTrip authority request session = (.dropped, session) := by
  obtain ⟨link, log⟩ := session
  cases link with
  | offline => rfl
  | scripted host replies =>
    have other : authority ≠ host := fun same => unreached ⟨replies, by rw [same]⟩
    simp [roundTrip, other]

theorem attempt_eq (authority : Text) (request : Request) (session : Session) :
    attempt authority request session =
      (responseOf? (roundTrip authority request session).1, (roundTrip authority request session).2) := rfl

theorem attempt_reached (reached : session.link.Reaches authority) :
    attempt authority request session = (responseOf? session.link.reply, session.receive [request]) := by
  rw [attempt_eq, roundTrip_reached reached]

theorem attempt_unreached (unreached : ¬ session.link.Reaches authority) :
    attempt authority request session = (none, session) := by
  rw [attempt_eq, roundTrip_unreached unreached]
  rfl

theorem sendOnce_on (authority : Text) (request : Request) (session : Session) :
    (sendOnce authority request).on session = match attempt authority request session with
      | (some response, after) => (.ok response, after)
      | (none, after) => (.error .transport, after) := by
  rw [sendOnce, on_lift]
  rcases attempt authority request session with ⟨_ | response, after⟩ <;> rfl

theorem sendTwice_on (authority : Text) (request : Request) (session : Session) :
    (sendTwice authority request).on session = match attempt authority request session with
      | (some response, after) => (.ok response, after)
      | (none, after) => (sendOnce authority request).on after := by
  rw [sendTwice, on_lift]
  rcases attempt authority request session with ⟨_ | response, after⟩ <;> rfl

/-- How often a request is sent: once more if no answer to the first attempt has begun. -/
def attempts (request : Request) (reply : Reply) : List Request :=
  match responseOf? reply with
  | some _ => [request]
  | none => [request, request]

theorem attempts_ne_nil (request : Request) (reply : Reply) : attempts request reply ≠ [] := by
  unfold attempts
  split <;> exact List.cons_ne_nil _ _

theorem eq_of_mem_attempts {sent : Request} {reply : Reply} (member : sent ∈ attempts request reply) :
    sent = request := by
  unfold attempts at member
  split at member <;> simpa using member

def answer? (link : Link) : Option Response := (responseOf? link.reply).or (responseOf? (link.skip 1).reply)

theorem sendOnce_reached (reached : session.link.Reaches authority) : (sendOnce authority request).on session =
    ((responseOf? session.link.reply).elim (.error .transport) .ok, session.receive [request]) := by
  rw [sendOnce_on, attempt_reached reached]
  cases responseOf? session.link.reply <;> rfl

theorem sendOnce_unreached (unreached : ¬ session.link.Reaches authority) :
    (sendOnce authority request).on session = (.error .transport, session) := by
  rw [sendOnce_on, attempt_unreached unreached]

theorem sendTwice_reached (reached : session.link.Reaches authority) : (sendTwice authority request).on session =
    ((answer? session.link).elim (.error .transport) .ok,
      session.receive (attempts request session.link.reply)) := by
  have again : (session.receive [request]).link.Reaches authority := (Link.reaches_skip 1).mpr reached
  rw [sendTwice_on, attempt_reached reached, attempts, answer?]
  cases responseOf? session.link.reply with
  | some response => rfl
  | none =>
    refine (sendOnce_reached again).trans ?_
    rw [Session.receive_receive]
    rfl

theorem sendTwice_unreached (unreached : ¬ session.link.Reaches authority) :
    (sendTwice authority request).on session = (.error .transport, session) := by
  rw [sendTwice_on, attempt_unreached unreached]
  exact sendOnce_unreached unreached

theorem on_map (steps : Exchange α) (f : α → β) (session : Session) :
    (f <$> steps).on session = ((steps.on session).1.map f, (steps.on session).2) := by
  rw [map_eq_pure_bind, on_bind]
  rcases steps.on session with ⟨error | value, after⟩ <;> rfl

theorem map_eq_ok_iff {steps : Exchange α} {f : α → β} {value : β} :
    (f <$> steps).on session = (.ok value, after) ↔
      ∃ found, steps.on session = (.ok found, after) ∧ f found = value := by
  rw [on_map]
  rcases steps.on session with ⟨error | found, last⟩
  · exact iff_of_false nofun nofun
  · constructor
    · intro ended
      cases ended
      exact ⟨found, rfl, rfl⟩
    · rintro ⟨other, ended, rfl⟩
      cases ended
      rfl

theorem parseUrl_on (text : Text) (session : Session) :
    (parseUrl text).on session = ((Url.ofText? text).elim (.error .transport) .ok, session) :=
  on_ofExcept _ session

/-- Steps move the session by requests that arrive, and not otherwise. -/
def Forward (steps : Exchange α) : Prop := ∀ session, ∃ requests, (steps.on session).2 = session.receive requests

theorem forward_ofExcept (result : Except ClientError α) : Forward (ofExcept result) := by
  intro session
  exact ⟨[], by rw [on_ofExcept, Session.receive_nil]⟩

theorem Forward.bind {steps : Exchange α} {next : α → Exchange β} (first : Forward steps)
    (second : ∀ value, Forward (next value)) : Forward (steps >>= next) := by
  intro session
  obtain ⟨requests, moved⟩ := first session
  rw [on_bind]
  rcases ended : steps.on session with ⟨error | value, after⟩
  · rw [ended] at moved
    exact ⟨requests, moved⟩
  · rw [ended] at moved
    obtain ⟨more, later⟩ := second value after
    refine ⟨requests ++ more, ?_⟩
    rw [← Session.receive_receive, ← moved]
    exact later

theorem Forward.map {steps : Exchange α} (forward : Forward steps) (f : α → β) : Forward (f <$> steps) := by
  intro session
  rw [on_map]
  exact forward session

def askDocument (url : Text) (request : Url → Request) : Exchange Json := do
  let address ← parseUrl url
  let response ← sendOnce address.authority (request address)
  ofExcept (readDocument response)

/-- The host of this URL can be reached at this address. -/
def Reachable (session : Session) (url : Text) (address : Url) : Prop :=
  Url.ofText? url = some address ∧ session.link.Reaches address.authority

theorem Reachable.parsed {url : Text} {address : Url} (reached : Reachable session url address) :
    (parseUrl url).on session = (.ok address, session) := by
  rw [parseUrl_on, reached.1]
  rfl

theorem reachable_receive {url : Text} {address : Url} (requests : List Request) :
    Reachable (session.receive requests) url address ↔ Reachable session url address :=
  and_congr_right fun _ => Link.reaches_skip _

theorem askDocument_reached {url : Text} {address : Url} (reached : Reachable session url address)
    (request : Url → Request) : (askDocument url request).on session =
      ((responseOf? session.link.reply).elim (.error .transport) readDocument,
        session.receive [request address]) := by
  rw [askDocument, on_bind_ok reached.parsed, on_bind, sendOnce_reached reached.2]
  cases responseOf? session.link.reply with
  | none => rfl
  | some response => exact on_ofExcept _ _

theorem askDocument_unreached {url : Text} (lost : ∀ address, ¬ Reachable session url address)
    (request : Url → Request) : (askDocument url request).on session = (.error .transport, session) := by
  rw [askDocument, on_bind, parseUrl_on]
  cases found : Url.ofText? url with
  | none => rfl
  | some address =>
    have unreached : ¬ session.link.Reaches address.authority := fun reached => lost address ⟨found, reached⟩
    exact (on_bind _ _ session).trans (by rw [sendOnce_unreached unreached])

theorem forward_askDocument (url : Text) (request : Url → Request) : Forward (askDocument url request) := by
  intro session
  by_cases reached : ∃ address, Reachable session url address
  · obtain ⟨address, reached⟩ := reached
    exact ⟨[request address], by rw [askDocument_reached reached]⟩
  · exact ⟨[], by rw [askDocument_unreached (not_exists.mp reached), Session.receive_nil]⟩

theorem readDocument_exhausted :
    ∃ error, (responseOf? .exhausted).elim (.error .transport) readDocument = .error error :=
  ⟨_, rfl⟩

theorem reachable_of_askDocument {url : Text} {request : Url → Request} {document : Json}
    (ended : (askDocument url request).on session = (.ok document, after)) :
    ∃ address, Reachable session url address := by
  refine Classical.byContradiction fun lost => ?_
  rw [askDocument_unreached (not_exists.mp lost)] at ended
  cases ended

theorem remaining_of_askDocument {url : Text} {request : Url → Request} {document : Json}
    (ended : (askDocument url request).on session = (.ok document, after)) :
    after.link.remaining + 1 = session.link.remaining := by
  obtain ⟨address, reached⟩ := reachable_of_askDocument ended
  rw [askDocument_reached reached] at ended
  obtain ⟨read, rfl⟩ := Prod.mk.inj ended
  obtain ⟨replies, scripted⟩ := reached.2
  cases replies with
  | nil =>
    obtain ⟨error, exhausted⟩ := readDocument_exhausted
    rw [scripted] at read
    exact nomatch exhausted.symm.trans read
  | cons reply rest =>
    rw [Session.receive, scripted]
    rfl

end Exchange

end LiteralSql
