import LiteralSql.Proofs.Client.Agreement
import LiteralSql.Proofs.Client.Answers
import Mathlib.Data.Nat.Find

/-! The protocol of jobs.

A job is submitted once. Its answer names the job, which is then looked at until
an answer says something else than that it is in progress. That answer ends the
run, and nothing is sent behind it.
-/

set_option autoImplicit false

namespace LiteralSql

namespace Json

def HasText (document : Json) (name text : Text) : Prop := document.member? name = some (.string text)

theorem hasText_iff {document : Json} {name text : Text} :
    document.HasText name text ↔ (document.member? name).bind Json.text? = some text := by
  rw [HasText, Option.bind_eq_some_iff]
  constructor
  · intro given
    exact ⟨_, given, rfl⟩
  · rintro ⟨found, given, text⟩
    cases found <;> cases text
    exact given

end Json

namespace JobStatus

variable {status : Text}

theorem isInProgress_ofText :
    (ofText status).isInProgress = true ↔ status = "pending".toList ∨ status = "running".toList := by
  by_cases pending : status = "pending".toList
  · exact iff_of_true (by rw [ofText, if_pos pending]; rfl) (.inl pending)
  by_cases running : status = "running".toList
  · exact iff_of_true (by rw [ofText, if_neg pending, if_pos running]; rfl) (.inr running)
  · refine iff_of_false ?_ (not_or.mpr ⟨pending, running⟩)
    rw [ofText, if_neg pending, if_neg running]
    repeat' split
    all_goals exact Bool.false_ne_true

theorem ofText_eq_done_iff : ofText status = .done ↔ status = "done".toList := by
  constructor
  · intro finished
    by_contra other
    rw [ofText, if_neg other] at finished
    repeat' split at finished
    all_goals cases finished
  · rintro rfl
    rfl

end JobStatus

namespace Job

/-- What the first of the queries says, as an item of an array or as a member with the number zero. -/
inductive FirstQuery : Json → Json → Prop
  | item (query : Json) (rest : List Json) : FirstQuery (.array (query :: rest)) query
  | numbered {queries query : Json} (given : queries.member? ['0'] = some query) : FirstQuery queries query

def QueryReason (document : Json) (reason : Text) : Prop :=
  ∃ job queries query, document.member? "query".toList = some job ∧ job.member? "query".toList = some queries ∧
    FirstQuery queries query ∧ query.HasText "failed_reason".toList reason

/-- Why a job is over that is not done: the reason of its query goes before the reason of the job, and
without either of them there is the status, which is empty if the answer has none. -/
inductive Reason (document : Json) : Text → Prop
  | query {reason : Text} (given : QueryReason document reason) : Reason document reason
  | job {reason : Text} (silent : ∀ reason, ¬ QueryReason document reason)
      (given : document.HasText "failed_reason".toList reason) : Reason document reason
  | status {status : Text} (silent : ∀ reason, ¬ QueryReason document reason)
      (unexplained : ∀ reason, ¬ document.HasText "failed_reason".toList reason)
      (given : document.HasText "status".toList status) :
      Reason document ("query failed with status \"".toList ++ status ++ ['"'])
  | unknown (silent : ∀ reason, ¬ QueryReason document reason)
      (unexplained : ∀ reason, ¬ document.HasText "failed_reason".toList reason)
      (mute : ∀ status, ¬ document.HasText "status".toList status) :
      Reason document "query failed with status \"\"".toList

variable {document : Json}

theorem first?_eq_some_iff {queries query : Json} : first? queries = some query ↔ FirstQuery queries query := by
  constructor
  · intro found
    unfold first? at found
    split at found
    · cases found
      exact .item _ _
    · exact .numbered found
  · rintro (⟨query, rest⟩ | ⟨given⟩)
    · rfl
    · cases queries with
      | array items => cases given
      | object members => exact given
      | _ => cases given

theorem queryReason?_eq_some_iff {reason : Text} :
    queryReason? document = some reason ↔ QueryReason document reason := by
  simp only [queryReason?, QueryReason, bind, Option.bind_eq_some_iff, first?_eq_some_iff, Json.hasText_iff]
  constructor
  · rintro ⟨job, given, queries, inner, query, first, found, member, text⟩
    exact ⟨job, queries, query, given, inner, first, found, member, text⟩
  · rintro ⟨job, queries, query, given, inner, first, found, member, text⟩
    exact ⟨job, given, queries, inner, query, first, found, member, text⟩

theorem reason_failureReason (document : Json) : Reason document (failureReason (statusText document) document) := by
  unfold failureReason
  split
  · next reason found => exact .query (queryReason?_eq_some_iff.mp found)
  · next reason silent found =>
    refine .job (fun other given => ?_) (Json.hasText_iff.mpr found)
    exact nomatch silent.symm.trans (queryReason?_eq_some_iff.mpr given)
  · next silent unexplained =>
    have quiet (other : Text) : ¬ QueryReason document other := fun given =>
      nomatch silent.symm.trans (queryReason?_eq_some_iff.mpr given)
    have bare (other : Text) : ¬ document.HasText "failed_reason".toList other := fun given =>
      nomatch unexplained.symm.trans (Json.hasText_iff.mp given)
    rw [statusText]
    cases given : (document.member? "status".toList).bind Json.text? with
    | some status => exact .status quiet bare (Json.hasText_iff.mpr given)
    | none =>
      exact .unknown quiet bare fun status found => nomatch given.symm.trans (Json.hasText_iff.mp found)

theorem Reason.eq {reason : Text} (given : Reason document reason) :
    failureReason (statusText document) document = reason := by
  have quiet (silent : ∀ reason, ¬ QueryReason document reason) : queryReason? document = none :=
    Option.eq_none_iff_forall_ne_some.mpr fun other found => silent other (queryReason?_eq_some_iff.mp found)
  have bare {name : Text} (absent : ∀ text, ¬ document.HasText name text) :
      (document.member? name).bind Json.text? = none :=
    Option.eq_none_iff_forall_ne_some.mpr fun other found => absent other (Json.hasText_iff.mpr found)
  cases given with
  | query given => rw [failureReason, queryReason?_eq_some_iff.mpr given]
  | job silent given => rw [failureReason, quiet silent, Json.hasText_iff.mp given]
  | status silent unexplained given =>
    rw [failureReason, quiet silent, bare unexplained, statusText, Json.hasText_iff.mp given]
    rfl
  | unknown silent unexplained mute =>
    rw [failureReason, quiet silent, bare unexplained, statusText, bare mute]
    rfl

theorem id?_eq_some_iff {job : Text} : id? document = some job ↔ document.HasText "job_id".toList job :=
  Json.hasText_iff.symm

theorem statusText_eq_iff {status : Text} (some : status ≠ []) :
    statusText document = status ↔ document.HasText "status".toList status := by
  rw [statusText, Json.hasText_iff]
  cases (document.member? "status".toList).bind Json.text? with
  | none => exact iff_of_false (fun same => some same.symm) nofun
  | some found => simp

def InProgress (document : Json) : Prop :=
  document.HasText "status".toList "pending".toList ∨ document.HasText "status".toList "running".toList

def Done (document : Json) : Prop := document.HasText "status".toList "done".toList

theorem inProgress_iff : InProgress document ↔ (JobStatus.ofText (statusText document)).isInProgress = true := by
  rw [JobStatus.isInProgress_ofText, statusText_eq_iff (by decide), statusText_eq_iff (by decide)]
  rfl

theorem done_iff : Done document ↔ JobStatus.ofText (statusText document) = .done := by
  rw [JobStatus.ofText_eq_done_iff, statusText_eq_iff (by decide)]
  rfl

end Job

namespace Reply

def Going (reply : Reply) : Prop := ∃ document, reply.Brings (.ok document) ∧ Job.InProgress document

/-- How a job ends with this reply to the last one of so many looks. -/
inductive Ends (job : Text) (polls : Nat) : Reply → Except ClientError JobSummary → Prop
  | unanswered {reply : Reply} {error : ClientError} (brings : reply.Brings (.error error)) :
      Ends job polls reply (.error error)
  | done {reply : Reply} {document : Json} (brings : reply.Brings (.ok document)) (done : Job.Done document) :
      Ends job polls reply (.ok ⟨job, polls, document⟩)
  | failed {reply : Reply} {document : Json} {reason : Text} (brings : reply.Brings (.ok document))
      (stopped : ¬ Job.InProgress document) (undone : ¬ Job.Done document) (given : Job.Reason document reason) :
      Ends job polls reply (.error (.jobFailed reason))

variable {reply : Reply}

theorem Brings.unique {first second : Except ClientError Json} (one : reply.Brings first)
    (other : reply.Brings second) : first = second :=
  one.eq.symm.trans other.eq

theorem not_going_of_error {error : ClientError} (brings : reply.Brings (.error error)) : ¬ reply.Going :=
  fun ⟨_, other, _⟩ => nomatch brings.unique other

theorem Ends.stopped {job : Text} {polls : Nat} {result : Except ClientError JobSummary}
    (ends : reply.Ends job polls result) : ¬ reply.Going := by
  rintro ⟨document, brings, progress⟩
  cases ends with
  | unanswered other => cases brings.unique other
  | done other done =>
    cases brings.unique other
    rw [Job.inProgress_iff, Job.done_iff.mp done] at progress
    cases progress
  | failed other stopped =>
    cases brings.unique other
    exact stopped progress

theorem exists_ends (job : Text) (polls : Nat) (stopped : ¬ reply.Going) : ∃ result, reply.Ends job polls result := by
  obtain ⟨error | document, brings⟩ := reply.exists_brings
  · exact ⟨_, .unanswered brings⟩
  · have idle : ¬ Job.InProgress document := fun going => stopped ⟨document, brings, going⟩
    by_cases done : Job.Done document
    · exact ⟨_, .done brings done⟩
    · exact ⟨_, .failed brings idle done (Job.reason_failureReason document)⟩

end Reply

namespace Link

/-- A script that is used up does not say that a job is in progress. -/
theorem not_going_remaining (link : Link) : ¬ (link.skip link.remaining).reply.Going := by
  cases link with
  | offline => exact Reply.not_going_of_error .unanswered
  | scripted host replies =>
    rw [remaining, skip, reply, List.drop_length]
    exact Reply.not_going_of_error (.refused (.remote (.whole rfl) rfl))

theorem le_remaining_of_going {link : Link} {stop : Nat} (going : ∀ earlier < stop, (link.skip earlier).reply.Going) :
    stop ≤ link.remaining :=
  Nat.le_of_not_lt fun less => not_going_remaining link (going _ less)

theorem exists_stop (link : Link) :
    ∃ stop, (∀ earlier < stop, (link.skip earlier).reply.Going) ∧ ¬ (link.skip stop).reply.Going := by
  classical
  have stops : ∃ stop, ¬ (link.skip stop).reply.Going := ⟨link.remaining, not_going_remaining link⟩
  exact ⟨Nat.find stops, fun earlier less => not_not.mp (Nat.find_min stops less), Nat.find_spec stops⟩

end Link

namespace Client

open Exchange

def submission (client : Client) (sql : Text) (onSuccess onError : Option Text) (address : Url) : Request :=
  ⟨.post, (address.addQuery [("api_key".toList, client.config.apiKey)]).target, some "application/json".toList,
    (Job.request sql onSuccess onError).print⟩

def look (client : Client) (place : Url) : Request :=
  ⟨.get, (place.addQuery [("api_key".toList, client.config.apiKey)]).target, none, []⟩

/-- How the run of a job ends, and what arrives at the other side. The submission takes the first reply. -/
inductive JobRun (client : Client) (sql : Text) (onSuccess onError : Option Text) (session : Session) :
    Except ClientError JobSummary → List Request → Prop
  | unreachable (lost : ∀ address, ¬ Reachable session client.config.jobUrl address) :
      JobRun client sql onSuccess onError session (.error .transport) []
  | refused {address : Url} {error : ClientError} (reached : Reachable session client.config.jobUrl address)
      (brings : session.link.reply.Brings (.error error)) :
      JobRun client sql onSuccess onError session (.error error) [client.submission sql onSuccess onError address]
  | unnamed {address : Url} {document : Json} (reached : Reachable session client.config.jobUrl address)
      (brings : session.link.reply.Brings (.ok document)) (unnamed : ∀ job, ¬ document.HasText "job_id".toList job) :
      JobRun client sql onSuccess onError session (.error (.decode (.missingJobId document)))
        [client.submission sql onSuccess onError address]
  | looked {address place : Url} {document : Json} {job : Text} {looks : Nat} {result : Except ClientError JobSummary}
      (reached : Reachable session client.config.jobUrl address) (brings : session.link.reply.Brings (.ok document))
      (named : document.HasText "job_id".toList job) (found : Url.ofText? (client.config.jobStatusUrl job) = some place)
      (some : 0 < looks) (going : ∀ earlier, 0 < earlier → earlier < looks → (session.link.skip earlier).reply.Going)
      (ends : (session.link.skip looks).reply.Ends job looks result) :
      JobRun client sql onSuccess onError session result
        (client.submission sql onSuccess onError address :: List.replicate looks (client.look place))

variable {client : Client} {sql job : Text} {onSuccess onError : Option Text} {session : Session} {address place : Url}

theorem submitJob_on (reached : Reachable session client.config.jobUrl address) {result : Except ClientError Json}
    (brings : session.link.reply.Brings result) : (client.submitJob sql onSuccess onError).on session =
      (result, session.receive [client.submission sql onSuccess onError address]) :=
  (askDocument_reached reached _).trans (by rw [brings.eq]; rfl)

theorem askJob_on (reached : Reachable session (client.config.jobStatusUrl job) place)
    {result : Except ClientError Json} (brings : session.link.reply.Brings result) :
    (client.askJob job).on session = (result, session.receive [client.look place]) :=
  (askDocument_reached reached _).trans (by rw [brings.eq]; rfl)

theorem poll_going (reached : Reachable session (client.config.jobStatusUrl job) place)
    (going : session.link.reply.Going) (fuel polls : Nat) : (client.poll job (fuel + 1) polls).on session =
      (client.poll job fuel (polls + 1)).on (session.receive [client.look place]) := by
  obtain ⟨document, brings, progress⟩ := going
  have going := Job.inProgress_iff.mp progress
  rw [poll_succ, on_bind_ok (askJob_on reached brings)]
  cases status : JobStatus.ofText (Job.statusText document) with
  | pending | running => rfl
  | done | failed | canceled | unknown =>
    rw [status] at going
    cases going

theorem poll_ends (reached : Reachable session (client.config.jobStatusUrl job) place) {polls : Nat}
    {result : Except ClientError JobSummary} (ends : session.link.reply.Ends job (polls + 1) result) (fuel : Nat) :
    (client.poll job (fuel + 1) polls).on session = (result, session.receive [client.look place]) := by
  rw [poll_succ]
  cases ends with
  | unanswered brings => rw [on_bind, askJob_on reached brings]
  | done brings done =>
    rw [on_bind_ok (askJob_on reached brings), Job.done_iff.mp done]
    rfl
  | @failed document reason brings stopped undone given =>
    rw [on_bind_ok (askJob_on reached brings), given.eq]
    rw [Job.inProgress_iff] at stopped
    rw [Job.done_iff] at undone
    cases status : JobStatus.ofText (Job.statusText document) with
    | pending | running =>
      rw [status] at stopped
      exact absurd rfl stopped
    | done => exact absurd status undone
    | failed | canceled | unknown => rfl

theorem poll_on {looks : Nat} (reached : Reachable session (client.config.jobStatusUrl job) place) {fuel polls : Nat}
    {result : Except ClientError JobSummary} (enough : looks < fuel)
    (going : ∀ earlier < looks, (session.link.skip earlier).reply.Going)
    (ends : (session.link.skip looks).reply.Ends job (polls + looks + 1) result) :
    (client.poll job fuel polls).on session =
      (result, session.receive (List.replicate (looks + 1) (client.look place))) := by
  obtain ⟨fuel, rfl⟩ := Nat.exists_eq_add_of_le' (Nat.one_le_of_lt enough)
  induction looks generalizing session fuel polls with
  | zero =>
    rw [Link.skip_zero] at ends
    exact poll_ends reached ends fuel
  | succ looks ih =>
    have first := going 0 (Nat.succ_pos looks)
    rw [Link.skip_zero] at first
    rw [poll_going reached first]
    obtain ⟨fuel, rfl⟩ := Nat.exists_eq_add_of_le' (show 1 ≤ fuel by omega)
    have later (count : Nat) :
        (session.receive [client.look place]).link.skip count = session.link.skip (count + 1) := by
      rw [Session.receive, Link.skip_skip, Nat.add_comm]
      rfl
    refine (ih ((reachable_receive _).mpr reached) (fun earlier less => ?_) ?_ fuel (by omega)).trans ?_
    · rw [later]
      exact going (earlier + 1) (Nat.succ_lt_succ less)
    · rw [later, Nat.add_right_comm polls, Nat.add_assoc polls]
      exact ends
    · rw [Session.receive_receive]
      rfl

theorem reachable_jobStatus (reached : Reachable session client.config.jobUrl address) (job : Text) :
    ∃ place, Reachable session (client.config.jobStatusUrl job) place := by
  have same := (client.config.authority_jobStatusUrl job).trans client.config.authority_jobUrl.symm
  rw [reached.1, Option.map_some] at same
  obtain ⟨place, found, authority⟩ := Option.map_eq_some_iff.mp same
  exact ⟨place, found, authority ▸ reached.2⟩

/-- A job whose name is plain is asked for by that name, behind the path of jobs. -/
theorem target_look (bare : ∀ c ∈ client.config.baseUrl, c ≠ '?' ∧ c ≠ '#')
    (plain : ∀ c ∈ job, Url.isUnreserved c = true)
    (dotless : job ≠ "..".toList ∧ job ≠ ".".toList) (submitted : Url.ofText? client.config.jobUrl = some address)
    (found : Url.ofText? (client.config.jobStatusUrl job) = some place) : (client.look place).target =
      address.path ++ '/' :: job ++ '?' :: Form.encode [("api_key".toList, client.config.apiKey)] := by
  rw [Config.place_of_job bare plain dotless submitted] at found
  cases found
  rfl

theorem JobRun.eq {result : Except ClientError JobSummary} {requests : List Request}
    (run : client.JobRun sql onSuccess onError session result requests) :
    (client.runJob sql onSuccess onError).on session = (result, session.receive requests) := by
  rw [runJob_eq]
  cases run with
  | unreachable lost =>
    have unsent : (client.submitJob sql onSuccess onError).on session = (.error .transport, session) :=
      askDocument_unreached lost _
    rw [on_bind, unsent, Session.receive_nil]
  | refused reached brings => rw [on_bind, submitJob_on reached brings]
  | @unnamed address document reached brings unnamed =>
    have none : Job.id? document = none :=
      Option.eq_none_iff_forall_ne_some.mpr fun job found => unnamed job (Job.id?_eq_some_iff.mp found)
    rw [on_bind_ok (submitJob_on reached brings), none]
    rfl
  | @looked address place document job looks result reached brings named found some going ends =>
    obtain ⟨looks, rfl⟩ := Nat.exists_eq_add_of_le' some
    obtain ⟨other, again⟩ := reachable_jobStatus reached job
    obtain rfl := Option.some.inj (found.symm.trans again.1)
    -- The submission has taken the first reply, so the looks count from the second one.
    have later (count : Nat) : (session.receive [client.submission sql onSuccess onError address]).link.skip count =
        session.link.skip (count + 1) := by
      rw [Session.receive, Link.skip_skip, Nat.add_comm]
      rfl
    have goes : ∀ earlier < looks,
        ((session.receive [client.submission sql onSuccess onError address]).link.skip earlier).reply.Going := by
      intro earlier less
      rw [later]
      exact going (earlier + 1) (Nat.succ_pos earlier) (Nat.succ_lt_succ less)
    have last : ((session.receive [client.submission sql onSuccess onError address]).link.skip looks).reply.Ends job
        (0 + looks + 1) result := by
      rw [later, Nat.zero_add]
      exact ends
    rw [on_bind_ok (submitJob_on reached brings), Job.id?_eq_some_iff.mpr named]
    change (remainingReplies >>= _).on _ = _
    rw [on_bind_ok (remainingReplies_on _), poll_on ((reachable_receive _).mpr again)
      (Nat.lt_succ_of_le (Link.le_remaining_of_going goes)) goes last, Session.receive_receive]
    rfl

theorem exists_jobRun (client : Client) (sql : Text) (onSuccess onError : Option Text) (session : Session) :
    ∃ result requests, client.JobRun sql onSuccess onError session result requests := by
  by_cases reached : ∃ address, Reachable session client.config.jobUrl address
  · obtain ⟨address, reached⟩ := reached
    obtain ⟨error | document, brings⟩ := session.link.reply.exists_brings
    · exact ⟨_, _, .refused reached brings⟩
    by_cases named : ∃ job, document.HasText "job_id".toList job
    · obtain ⟨job, named⟩ := named
      obtain ⟨place, found⟩ := reachable_jobStatus reached job
      obtain ⟨stop, going, stopped⟩ := (session.link.skip 1).exists_stop
      obtain ⟨result, ends⟩ := Reply.exists_ends job (stop + 1) stopped
      rw [Link.skip_skip, Nat.add_comm 1] at ends
      refine ⟨result, _, .looked reached brings named found.1 (Nat.succ_pos stop) ?_ ends⟩
      rintro (_ | earlier) some less
      · exact absurd some (Nat.lt_irrefl 0)
      · have before := going earlier (Nat.lt_of_succ_lt_succ less)
        rwa [Link.skip_skip, Nat.add_comm 1] at before
    · exact ⟨_, _, .unnamed reached brings (not_exists.mp named)⟩
  · exact ⟨_, _, .unreachable (not_exists.mp reached)⟩

/-- A job is submitted once. If the reply to that brings no document that names the job, the run fails with
it and nothing is looked at. Otherwise the job is looked at once for each reply, until the first one that
does not say that it is in progress. That reply decides how the run ends, and nothing is sent behind it. -/
theorem job_protocol (client : Client) (sql : Text) (onSuccess onError : Option Text) (session : Session)
    (result : Except ClientError JobSummary) (after : Session) :
    (client.runJob sql onSuccess onError).on session = (result, after) ↔ ∃ requests,
      client.JobRun sql onSuccess onError session result requests ∧ after = session.receive requests := by
  constructor
  · intro ended
    obtain ⟨other, requests, run⟩ := client.exists_jobRun sql onSuccess onError session
    obtain ⟨rfl, rfl⟩ := Prod.mk.inj (run.eq.symm.trans ended)
    exact ⟨requests, run, rfl⟩
  · rintro ⟨requests, run, rfl⟩
    exact run.eq

end Client

end LiteralSql
