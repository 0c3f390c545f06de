import LiteralSql.Proofs.Client.Requests

/-! Statements that are run as jobs.

A job that has been submitted is looked at until it is over. The replies of a
script bound how often that is: no look goes without one.
-/

set_option autoImplicit false

namespace LiteralSql

namespace Client

open Exchange

def submitJob (client : Client) (sql : Text) (onSuccess onError : Option Text) : Exchange Json :=
  postDocument client.config.jobUrl [("api_key".toList, client.config.apiKey)] (Job.request sql onSuccess onError)

def askJob (client : Client) (job : Text) : Exchange Json :=
  getDocument (client.config.jobStatusUrl job) [("api_key".toList, client.config.apiKey)]

/-- The job is looked at this many times: it is in progress until the last answer says that it is done. -/
inductive JobDone (client : Client) (job : Text) : Nat → Session → Json → Session → Prop
  | done {session after : Session} {response : Json}
      (asked : (client.askJob job).on session = (.ok response, after))
      (ended : JobStatus.ofText (Job.statusText response) = .done) : JobDone client job 1 session response after
  | later {polls : Nat} {session between after : Session} {response last : Json}
      (asked : (client.askJob job).on session = (.ok response, between))
      (going : (JobStatus.ofText (Job.statusText response)).isInProgress = true)
      (rest : JobDone client job polls between last after) : JobDone client job (polls + 1) session last after

variable {client : Client} {job : Text} {session after : Session}

theorem poll_succ (client : Client) (job : Text) (fuel polls : Nat) : client.poll job (fuel + 1) polls =
    client.askJob job >>= fun response => match JobStatus.ofText (Job.statusText response) with
      | .done => pure ⟨job, polls + 1, response⟩
      | .pending | .running => client.poll job fuel (polls + 1)
      | _ => fail (.jobFailed (Job.failureReason (Job.statusText response) response)) := rfl

theorem JobDone.of_poll {fuel polls : Nat} {summary : JobSummary}
    (ended : (client.poll job fuel polls).on session = (.ok summary, after)) :
    ∃ more, client.JobDone job more session summary.response after ∧ summary.id = job ∧
      summary.polls = polls + more := by
  induction fuel generalizing polls session with
  | zero => cases ended
  | succ fuel ih =>
    rw [poll_succ, on_bind] at ended
    rcases asked : (client.askJob job).on session with ⟨error | response, between⟩
    · rw [asked] at ended
      cases ended
    · rw [asked] at ended
      dsimp only at ended
      cases status : JobStatus.ofText (Job.statusText response) with
      | done =>
        rw [status] at ended
        cases ended
        exact ⟨1, .done asked status, rfl, rfl⟩
      | pending | running =>
        rw [status] at ended
        obtain ⟨more, rest, same, count⟩ := ih ended
        exact ⟨more + 1, .later asked (by rw [status]; rfl) rest, same, by omega⟩
      | failed | canceled | unknown =>
        rw [status] at ended
        cases ended

theorem JobDone.poll {more fuel polls : Nat} {response : Json} (done : client.JobDone job more session response after)
    (enough : more ≤ fuel) :
    (client.poll job fuel polls).on session = (.ok ⟨job, polls + more, response⟩, after) := by
  -- Each look takes one from the fuel and adds one to the count.
  induction done generalizing fuel polls with
  | done asked ended =>
    obtain ⟨fuel, rfl⟩ := Nat.exists_eq_add_of_le' enough
    rw [poll_succ, on_bind_ok asked, ended]
    rfl
  | @later more session between after response last asked going rest ih =>
    obtain ⟨fuel, rfl⟩ := Nat.exists_eq_add_of_le' (Nat.le_of_add_left_le enough)
    rw [poll_succ, on_bind_ok asked]
    have again := @ih fuel (polls + 1) (by omega)
    rw [Nat.add_right_comm, Nat.add_assoc] at again
    cases status : JobStatus.ofText (Job.statusText response) with
    | pending | running => exact again
    | done | failed | canceled | unknown =>
      rw [status] at going
      cases going

theorem JobDone.le_remaining {polls : Nat} {response : Json}
    (done : client.JobDone job polls session response after) : polls ≤ session.link.remaining := by
  induction done with
  | done asked ended =>
    have less := remaining_of_askDocument asked
    omega
  | later asked going rest ih =>
    have less := remaining_of_askDocument asked
    omega

theorem remainingReplies_on (session : Session) :
    remainingReplies.on session = (.ok session.link.remaining, session) := by
  obtain ⟨link, log⟩ := session
  cases link <;> rfl

def Ran (client : Client) (sql : Text) (onSuccess onError : Option Text) (session : Session)
    (summary : JobSummary) (after : Session) : Prop :=
  ∃ submitted between, (client.submitJob sql onSuccess onError).on session = (.ok submitted, between) ∧
    Job.id? submitted = some summary.id ∧
    client.JobDone summary.id summary.polls between summary.response after

variable {sql : Text} {onSuccess onError : Option Text}

theorem runJob_eq (client : Client) (sql : Text) (onSuccess onError : Option Text) :
    client.runJob sql onSuccess onError = client.submitJob sql onSuccess onError >>= fun submitted =>
      match Job.id? submitted with
      | none => fail (.decode (.missingJobId submitted))
      | some job => remainingReplies >>= fun replies => client.poll job (replies + 1) 0 := rfl

theorem runJob_eq_ok_iff {summary : JobSummary} :
    (client.runJob sql onSuccess onError).on session = (.ok summary, after) ↔
      client.Ran sql onSuccess onError session summary after := by
  rw [runJob_eq, on_bind]
  constructor
  · intro ended
    rcases posted : (client.submitJob sql onSuccess onError).on session with ⟨error | submitted, between⟩
    · rw [posted] at ended
      cases ended
    · rw [posted] at ended
      dsimp only at ended
      cases job : Job.id? submitted with
      | none =>
        rw [job] at ended
        cases ended
      | some job =>
        rw [job] at ended
        dsimp only at ended
        rw [on_bind_ok (remainingReplies_on between)] at ended
        obtain ⟨polls, done, rfl, count⟩ := JobDone.of_poll ended
        rw [Nat.zero_add] at count
        exact ⟨submitted, between, posted, job, count ▸ done⟩
  · rintro ⟨submitted, between, posted, job, done⟩
    rw [posted]
    dsimp only
    rw [job]
    dsimp only
    rw [on_bind_ok (remainingReplies_on between), done.poll (Nat.le_succ_of_le done.le_remaining), Nat.zero_add]

theorem forward_fail {α : Type} (error : ClientError) : Forward (fail error : Exchange α) :=
  forward_ofExcept (.error error)

theorem forward_poll (client : Client) (job : Text) (fuel polls : Nat) : Forward (client.poll job fuel polls) := by
  induction fuel generalizing polls with
  | zero => exact forward_fail .transport
  | succ fuel ih =>
    rw [poll_succ]
    refine (forward_askDocument _ _).bind fun response => ?_
    split
    · exact forward_ofExcept (.ok _)
    · exact ih (polls + 1)
    · exact ih (polls + 1)
    · exact forward_fail _

theorem forward_runJob (client : Client) (sql : Text) (onSuccess onError : Option Text) :
    Forward (client.runJob sql onSuccess onError) := by
  rw [runJob_eq]
  refine (forward_askDocument _ _).bind fun submitted => ?_
  split
  · exact forward_fail _
  · refine Forward.bind (fun session => ⟨[], ?_⟩) fun replies => forward_poll client _ _ _
    rw [remainingReplies_on, Session.receive_nil]

end Client

end LiteralSql
