import BuildMatrix.Proofs.Registry.Exchange

/-!
# How an exchange ends

An exchange sends requests until a reply is not transient, or until it has retried as often as it
may. It reports what the last reply says, never that of an earlier one and never that there was
none. Reading the body of a success sends nothing more, whether or not it can be read.
-/

namespace BuildMatrix.Registry

/-- What an exchange over a URL reports when a reply is its last. -/
inductive Reply.Reported (url : Url) : Reply → Except RegistryError (Option Bytes) → Prop where
  /-- A success delivers what comes of its body. -/
  | success {status : Nat} {body : Option Bytes} (low : 200 ≤ status) (high : status ≤ 299) :
      Reported url (.answered status body) (.ok body)
  /-- The registry asked for fewer requests. -/
  | rateLimit {body : Option Bytes} : Reported url (.answered 429 body) (.error .rateLimited)
  /-- Any other status is named. -/
  | refusal {status : Nat} {body : Option Bytes} (unlimited : status ≠ 429)
      (unsuccessful : ¬ (200 ≤ status ∧ status ≤ 299)) :
      Reported url (.answered status body)
        (.error (.network ("HTTP " ++ StatusCode.describe status)))
  /-- The connection failed. -/
  | disconnected : Reported url .disconnected
      (.error (.network ("error sending request for url (" ++ url.render ++ ")")))
  /-- No answer came in time. -/
  | timedOut : Reported url .timedOut (.error .timeout)

/-- What an exchange reports when it ends with a verdict, whether or not it might have gone on. -/
def Verdict.report : Verdict → Except RegistryError (Option Bytes)
  | .settled result => result
  | .transient failure => .error failure

variable {url : Url} {replies : Nat → Reply}

/-- The verdict on a reply is what the reply says. -/
theorem reported_judge (url : Url) (reply : Reply) :
    reply.Reported url (judge url reply).report := by
  cases reply with
  | answered status body =>
    unfold judge
    simp only [StatusCode.isRateLimit, StatusCode.isServerError, StatusCode.isSuccess,
      Bool.and_eq_true, decide_eq_true_eq]
    split_ifs with limited faulty success
    · rw [limited]
      exact .rateLimit
    · exact .refusal limited (by omega)
    · exact .success success.1 success.2
    · exact .refusal limited success
  | disconnected => exact .disconnected
  | timedOut => exact .timedOut

/-- No reply says that there was none. -/
theorem Reply.Reported.ne_unattempted {reply : Reply}
    {result : Except RegistryError (Option Bytes)} (reported : reply.Reported url result) :
    result ≠ .error unattempted := by
  intro same
  have text {detail : String} (known : RegistryError.network detail = unattempted) :
      detail.toList = "unknown error".toList := by
    rw [RegistryError.network.inj known]
  cases reported with
  | success => exact nomatch same
  | rateLimit => exact nomatch same
  | timedOut => exact nomatch same
  | refusal =>
    have named := text (Except.error.inj same)
    simp at named
  | disconnected =>
    have named := text (Except.error.inj same)
    simp at named

/-- An exchange whose first settled reply is within reach ends with that reply. -/
theorem attempt_reports_settled {first retries : Nat} (reached : first ≤ retries)
    (earlier : ∀ before, before < first → (replies before).Transient)
    (other : ¬ (replies first).Transient) :
    attempt url replies 0 retries = ((judge url (replies first)).report, first + 1) := by
  rcases judge_cases url (replies first) with ⟨same, -⟩ | ⟨-, result, judged⟩
  · exact absurd same other
  · have ended := attempt_of_settled 0 retries reached (by simpa using earlier)
      (by simpa using judged)
    rw [ended, judged, Verdict.report, Nat.zero_add]

/-- An exchange that only sees transient replies ends with the last one. -/
theorem attempt_reports_last {retries : Nat}
    (transient : ∀ number, number ≤ retries → (replies number).Transient) :
    attempt url replies 0 retries = ((judge url (replies retries)).report, retries + 1) := by
  rcases judge_cases url (replies retries) with ⟨-, failure, judged⟩ | ⟨other, -⟩
  · have earlier : ∀ before, before < retries → (replies (0 + before)).Transient := by
      intro before lower
      rw [Nat.zero_add]
      exact transient before (by omega)
    rw [attempt_of_transient 0 retries earlier (by simpa using judged), judged, Verdict.report,
      Nat.zero_add]
  · exact absurd (transient retries (Nat.le_refl retries)) other

/-- An exchange always reports one of its replies. -/
theorem exists_reported_attempt (url : Url) (replies : Nat → Reply) (retries : Nat) :
    ∃ number, (replies number).Reported url (attempt url replies 0 retries).1 := by
  rcases transient_or_first replies retries with all | ⟨first, reached, earlier, other⟩
  · refine ⟨retries, ?_⟩
    rw [attempt_reports_last all]
    exact reported_judge url (replies retries)
  · refine ⟨first, ?_⟩
    rw [attempt_reports_settled reached earlier other]
    exact reported_judge url (replies first)

/-- Asking over a web address is one exchange and the reading of its body. -/
theorem consult_of_web (replies : Nat → Reply) (web : url.isWeb = true) (retries : Nat) :
    consult (some url) retries replies =
      ⟨(attempt url replies 0 retries).1.bind (read url),
        List.replicate (attempt url replies 0 retries).2 ⟨url.target⟩⟩ := by
  rw [consult]
  simp only [web, if_true]

/-- What an exchange delivers is read, and that is the answer. -/
theorem consult_answer_of_delivered (web : url.isWeb = true) {retries : Nat} {body : Option Bytes}
    (delivered : (attempt url replies 0 retries).1 = .ok body) :
    (consult (some url) retries replies).answer = read url body := by
  rw [consult_of_web replies web retries]
  show (attempt url replies 0 retries).1.bind (read url) = read url body
  rw [delivered]
  rfl

/-- A body that does not come whole or cannot be read is an invalid response. -/
theorem read_of_unreadable (url : Url) {body : Option Bytes}
    (unreadable : body.bind cycles? = none) :
    ∃ detail, read url body = .error (.invalidResponse detail) := by
  rw [read, unreadable]
  exact ⟨_, rfl⟩

/-- An exchange over a URL of the web sends one request more than there are replies before the first
one that is not transient, as long as it may retry that often, and otherwise one more than it may
retry. It reports the reply to the last request, never that there was none. The body of a success is
read once; one that breaks off, stays out or cannot be read is an invalid response and no further
request. -/
theorem exchange_reports_last_reply {url : Url} (web : url.isWeb = true)
    (replies : Nat → Reply) (retries : UInt32) :
    ∃ result sent, attempt url replies 0 retries.toNat = (result, sent) ∧
      (∀ first, first ≤ retries.toNat →
        (∀ before, before < first → (replies before).Transient) → ¬ (replies first).Transient →
          sent = first + 1 ∧ (replies first).Reported url result) ∧
      ((∀ number, number ≤ retries.toNat → (replies number).Transient) →
        sent = retries.toNat + 1 ∧ (replies retries.toNat).Reported url result) ∧
      result ≠ .error unattempted ∧
      (consult (some url) retries.toNat replies).requests = List.replicate sent ⟨url.target⟩ ∧
      (∀ failure, result = .error failure →
        (consult (some url) retries.toNat replies).answer = .error failure) ∧
      (∀ body, result = .ok (some body) →
        (∀ cycles, cycles? body = some cycles →
          (consult (some url) retries.toNat replies).answer = .ok cycles) ∧
        (cycles? body = none → ∃ detail,
          (consult (some url) retries.toNat replies).answer = .error (.invalidResponse detail))) ∧
      (result = .ok none → ∃ detail,
        (consult (some url) retries.toNat replies).answer = .error (.invalidResponse detail)) := by
  obtain ⟨number, reported⟩ := exists_reported_attempt url replies retries.toNat
  have consulted := consult_of_web replies web retries.toNat
  refine ⟨(attempt url replies 0 retries.toNat).1, (attempt url replies 0 retries.toNat).2, rfl,
    ?_, ?_, reported.ne_unattempted, ?_, ?_, ?_, ?_⟩
  · intro first reached earlier other
    rw [attempt_reports_settled reached earlier other]
    exact ⟨rfl, reported_judge url (replies first)⟩
  · intro all
    rw [attempt_reports_last all]
    exact ⟨rfl, reported_judge url (replies retries.toNat)⟩
  · rw [consulted]
  · intro failure failed
    rw [consulted]
    show (attempt url replies 0 retries.toNat).1.bind (read url) = .error failure
    rw [failed]
    rfl
  · intro body delivered
    rw [consult_answer_of_delivered web delivered]
    exact ⟨fun cycles readable => read_some_eq_ok_iff.2 readable,
      fun unreadable => @read_of_unreadable url (some body) unreadable⟩
  · intro brokenOff
    rw [consult_answer_of_delivered web brokenOff]
    exact read_of_unreadable url rfl

/-- A registry that is at fault, stays silent and then knows nothing is asked three times, and what
it says last is reported. -/
theorem exchange_reports_last_reply_of_recovery :
    let url : Url := ⟨"http".toList, some "[::1]:8080".toList, "/cycles".toList, none, none⟩
    let replies : Nat → Reply := fun number =>
      if number = 0 then .answered 503 none else if number = 1 then .timedOut
      else .answered 404 (some [])
    url.isWeb = true ∧ (consult (some url) 3 replies).requests.length = 3 ∧
      (consult (some url) 3 replies).answer = .error (.network "HTTP 404 Not Found") := by
  intro url replies
  have web : url.isWeb = true := by decide
  obtain ⟨result, sent, -, ended, -, -, requests, failed, -⟩ :=
    exchange_reports_last_reply web replies 3
  have earlier : ∀ before, before < 2 → (replies before).Transient := by
    intro before lower
    obtain rfl | rfl : before = 0 ∨ before = 1 := by omega
    · exact .inr ⟨by decide, by decide⟩
    · exact trivial
  have settled : ¬ (replies 2).Transient := by
    show ¬ (404 = 429 ∨ 500 ≤ 404 ∧ 404 ≤ 599)
    decide
  obtain ⟨rfl, reported⟩ := ended 2 (by decide) earlier settled
  have named : result = .error (.network "HTTP 404 Not Found") := by
    cases reported with
    | success low high => exact absurd high (by decide)
    | refusal => rfl
  refine ⟨web, ?_, failed _ named⟩
  have length := congrArg List.length requests
  rw [List.length_replicate] at length
  exact length

end BuildMatrix.Registry
