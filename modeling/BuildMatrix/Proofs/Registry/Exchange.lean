import BuildMatrix.Proofs.Traversal
import BuildMatrix.Registry.Exchange
import Mathlib.Order.Nat

/-!
# What an exchange yields

An exchange passes over transient replies and ends with the first other one, if its attempts reach
that far; otherwise it ends with the last attempt. A source therefore delivers release cycles
exactly when that other reply is a success whose body can be read.
-/

namespace BuildMatrix.Registry

/-! ## Replies -/

/-- The reply may be followed by another attempt. -/
def Reply.Transient : Reply → Prop
  | .answered status _ => status = 429 ∨ 500 ≤ status ∧ status ≤ 599
  | .disconnected => True
  | .timedOut => True

/-- The reply is an answer of success, and this is what comes of its body. -/
def Reply.Succeeds (reply : Reply) (body : Option Bytes) : Prop :=
  ∃ status, reply = .answered status body ∧ 200 ≤ status ∧ status ≤ 299

/-- A reply is judged transient or settles the exchange, as its kind says. -/
theorem judge_cases (url : Url) (reply : Reply) :
    (reply.Transient ∧ ∃ failure, judge url reply = .transient failure) ∨
      (¬ reply.Transient ∧ ∃ result, judge url reply = .settled result) := by
  cases reply with
  | answered status body =>
    unfold judge Reply.Transient
    simp only [StatusCode.isRateLimit, StatusCode.isServerError, Bool.and_eq_true,
      decide_eq_true_eq]
    by_cases limited : status = 429
    · exact .inl ⟨.inl limited, by simp [limited]⟩
    · by_cases faulty : 500 ≤ status ∧ status ≤ 599
      · exact .inl ⟨.inr faulty, by simp [limited, faulty]⟩
      · refine .inr ⟨by simp [limited, faulty], ?_⟩
        by_cases success : StatusCode.isSuccess status = true <;> simp [limited, faulty, success]
  | disconnected => exact .inl ⟨trivial, _, rfl⟩
  | timedOut => exact .inl ⟨trivial, _, rfl⟩

/-- An exchange settles with a success exactly when the reply is one. -/
theorem judge_eq_settled_ok_iff (url : Url) {reply : Reply} {body : Option Bytes} :
    judge url reply = .settled (.ok body) ↔ reply.Succeeds body := by
  unfold Reply.Succeeds
  cases reply with
  | answered status content =>
    simp only [Reply.answered.injEq]
    unfold judge
    simp only [StatusCode.isRateLimit, StatusCode.isServerError, StatusCode.isSuccess,
      Bool.and_eq_true, decide_eq_true_eq]
    constructor
    · intro settled
      split_ifs at settled with limited faulty success
      · simp only [Verdict.settled.injEq, Except.ok.injEq] at settled
        exact ⟨status, ⟨rfl, settled⟩, success⟩
      · simp at settled
    · rintro ⟨_, ⟨rfl, rfl⟩, success⟩
      have unlimited : ¬ status = 429 := by omega
      have faultless : ¬ (500 ≤ status ∧ status ≤ 599) := by omega
      rw [if_neg unlimited, if_neg faultless, if_pos success]
  | disconnected => simp [judge]
  | timedOut => simp [judge]

/-- A success is not transient, so it settles the exchange. -/
theorem Reply.Succeeds.not_transient {reply : Reply} {body : Option Bytes}
    (success : reply.Succeeds body) : ¬ reply.Transient := by
  obtain ⟨status, rfl, low, high⟩ := success
  show ¬ (status = 429 ∨ 500 ≤ status ∧ status ≤ 599)
  omega

/-! ## Exchanges -/

variable {url : Url} {replies : Nat → Reply}

/-- How the last request failed is forgotten with the next one. -/
theorem attempts_succ (last : Option RegistryError) (sent remaining : Nat) :
    attempts url replies last sent (remaining + 1) =
      attempts url replies none sent (remaining + 1) := by
  rw [attempts, attempts]

/-- A transient reply costs one attempt and decides nothing. -/
theorem attempt_succ_of_transient {sent : Nat} (transient : (replies sent).Transient)
    (retries : Nat) :
    attempt url replies sent (retries + 1) = attempt url replies (sent + 1) retries := by
  rw [attempt, attempt, attempts]
  rcases judge_cases url (replies sent) with ⟨-, failure, judged⟩ | ⟨other, -⟩
  · rw [judged]
    exact attempts_succ (some failure) (sent + 1) retries
  · exact absurd transient other

/-- The first reply that is not transient ends the exchange when it is within reach. -/
theorem attempt_of_settled {skipped : Nat} {result : Except RegistryError (Option Bytes)}
    (sent retries : Nat) (reached : skipped ≤ retries)
    (earlier : ∀ before, before < skipped → (replies (sent + before)).Transient)
    (settled : judge url (replies (sent + skipped)) = .settled result) :
    attempt url replies sent retries = (result, sent + skipped + 1) := by
  induction skipped generalizing sent retries with
  | zero =>
    rw [Nat.add_zero] at settled
    rw [attempt, attempts, settled, Nat.add_zero]
  | succ skipped ih =>
    obtain ⟨fewer, rfl⟩ : ∃ fewer, retries = fewer + 1 := ⟨retries - 1, by omega⟩
    have first : (replies sent).Transient := earlier 0 (by omega)
    rw [attempt_succ_of_transient first, show sent + (skipped + 1) = sent + 1 + skipped by omega]
    apply ih (sent + 1) fewer (by omega)
    · intro before lower
      have next := earlier (before + 1) (by omega)
      rwa [show sent + (before + 1) = sent + 1 + before by omega] at next
    · rwa [show sent + 1 + skipped = sent + (skipped + 1) by omega]

/-- When every reply within reach is transient, the last one is the failure. -/
theorem attempt_of_transient {failure : RegistryError} (sent retries : Nat)
    (transient : ∀ before, before < retries → (replies (sent + before)).Transient)
    (last : judge url (replies (sent + retries)) = .transient failure) :
    attempt url replies sent retries = (.error failure, sent + retries + 1) := by
  induction retries generalizing sent with
  | zero =>
    rw [Nat.add_zero] at last
    rw [attempt, attempts, last]
    rfl
  | succ retries ih =>
    have first : (replies sent).Transient := transient 0 (by omega)
    rw [attempt_succ_of_transient first, show sent + (retries + 1) = sent + 1 + retries by omega]
    apply ih (sent + 1)
    · intro before lower
      have next := transient (before + 1) (by omega)
      rwa [show sent + (before + 1) = sent + 1 + before by omega] at next
    · rwa [show sent + 1 + retries = sent + (retries + 1) by omega]

/-- Within reach there is a first reply that is not transient, or none. -/
theorem transient_or_first (replies : Nat → Reply) (retries : Nat) :
    (∀ number, number ≤ retries → (replies number).Transient) ∨
      ∃ skipped, skipped ≤ retries ∧ (∀ before, before < skipped → (replies before).Transient) ∧
        ¬ (replies skipped).Transient := by
  by_cases all : ∀ number, number ≤ retries → (replies number).Transient
  · exact .inl all
  · right
    push Not at all
    classical
    have least := Nat.find_spec all
    refine ⟨Nat.find all, least.1, fun before lower => ?_, least.2⟩
    by_contra other
    exact Nat.find_min all lower ⟨by omega, other⟩

/-- The replies bring this body, or a success without a whole one: after transient replies it is the
first other one, within so many attempts after the first. -/
def Brings (replies : Nat → Reply) (retries : Nat) (body : Option Bytes) : Prop :=
  ∃ skipped, skipped ≤ retries ∧ (∀ before, before < skipped → (replies before).Transient) ∧
    (replies skipped).Succeeds body

/-- An exchange yields exactly the body that its replies bring. -/
theorem attempt_eq_ok_iff {retries : Nat} {body : Option Bytes} :
    (attempt url replies 0 retries).1 = .ok body ↔ Brings replies retries body := by
  constructor
  · intro yielded
    rcases transient_or_first replies retries with all | ⟨skipped, reached, earlier, other⟩
    · rcases judge_cases url (replies retries) with ⟨-, failure, judged⟩ | ⟨other, -⟩
      · rw [attempt_of_transient 0 retries (by simpa using fun number lower => all number (by omega))
          (by simpa using judged)] at yielded
        exact nomatch yielded
      · exact absurd (all retries (Nat.le_refl retries)) other
    · rcases judge_cases url (replies skipped) with ⟨same, -⟩ | ⟨-, result, judged⟩
      · exact absurd same other
      · rw [attempt_of_settled 0 retries reached (by simpa using earlier) (by simpa using judged)]
          at yielded
        have success : result = .ok body := yielded
        exact ⟨skipped, reached, earlier, (judge_eq_settled_ok_iff url).1 (success ▸ judged)⟩
  · rintro ⟨skipped, reached, earlier, success⟩
    have judged := (judge_eq_settled_ok_iff url).2 success
    rw [attempt_of_settled 0 retries reached (by simpa using earlier) (by simpa using judged)]

/-! ## Sources -/

/-- The source delivers these release cycles: it has them, or the registry it asks brings a whole
body that reads as them. -/
inductive Source.Delivers : Source → List ReleaseCycle → Prop where
  /-- It has them. -/
  | listing (cycles : List ReleaseCycle) : Delivers (.listing cycles) cycles
  /-- They are brought over its URL. -/
  | web {url : Url} {retries : Nat} {replies : Nat → Reply} {body : Bytes}
      {cycles : List ReleaseCycle} (reachable : url.isWeb = true)
      (brought : Brings replies retries (some body)) (readable : cycles? body = some cycles) :
      Delivers (.web (some url) retries replies) cycles

/-- A source that is asked over a URL delivers what is brought over it and can be read. -/
theorem Source.delivers_web_iff {address : Option Url} {retries : Nat}
    {cycles : List ReleaseCycle} :
    (Source.web address retries replies).Delivers cycles ↔
      ∃ url body, address = some url ∧ url.isWeb = true ∧
        Brings replies retries (some body) ∧ cycles? body = some cycles := by
  constructor
  · rintro (_ | ⟨reachable, brought, readable⟩)
    exact ⟨_, _, rfl, reachable, brought, readable⟩
  · rintro ⟨url, body, rfl, reachable, brought, readable⟩
    exact .web reachable brought readable

/-- A whole body is read as cycles exactly when it is a payload of them. -/
theorem read_some_eq_ok_iff {body : Bytes} {cycles : List ReleaseCycle} :
    read url (some body) = .ok cycles ↔ cycles? body = some cycles := by
  rw [read, Option.bind_some]
  cases cycles? body <;> simp

/-- What comes of a body is read as cycles when it is whole and a payload of them. -/
theorem read_eq_ok_iff {arrived : Option Bytes} {cycles : List ReleaseCycle} :
    read url arrived = .ok cycles ↔
      ∃ body, arrived = some body ∧ cycles? body = some cycles := by
  cases arrived with
  | none =>
    constructor
    · intro read
      exact nomatch read
    · rintro ⟨body, whole, -⟩
      exact nomatch whole
  | some body =>
    rw [read_some_eq_ok_iff]
    simp

/-- A web address is answered when it can be asked and the body brought to it can be read. -/
theorem consult_answer_eq_ok_iff {address : Option Url} {retries : Nat}
    {cycles : List ReleaseCycle} :
    (consult address retries replies).answer = .ok cycles ↔
      ∃ url body, address = some url ∧ url.isWeb = true ∧
        Brings replies retries (some body) ∧ cycles? body = some cycles := by
  unfold consult
  cases address with
  | none => simp
  | some url =>
    dsimp only
    by_cases reachable : url.isWeb = true
    · rw [if_pos reachable]
      constructor
      · intro answered
        obtain ⟨arrived, brought, readable⟩ := Traversal.bind_eq_ok_iff.1 answered
        obtain ⟨body, rfl, payload⟩ := read_eq_ok_iff.1 readable
        exact ⟨url, body, rfl, reachable, attempt_eq_ok_iff.1 brought, payload⟩
      · rintro ⟨other, body, same, -, brought, payload⟩
        obtain rfl : url = other := Option.some.inj same
        exact Traversal.bind_eq_ok_iff.2
          ⟨some body, attempt_eq_ok_iff.2 brought, read_some_eq_ok_iff.2 payload⟩
    · rw [if_neg reachable]
      constructor
      · intro answered
        exact nomatch answered
      · rintro ⟨other, body, same, web, -⟩
        obtain rfl : url = other := Option.some.inj same
        exact absurd web reachable

/-- Asking a source is answered with exactly the cycles it delivers. -/
theorem Source.consult_answer_eq_ok_iff {source : Source} {cycles : List ReleaseCycle} :
    source.consult.answer = .ok cycles ↔ source.Delivers cycles := by
  cases source with
  | failing failure =>
    constructor
    · intro answered
      exact nomatch answered
    · intro delivered
      exact nomatch delivered
  | listing own =>
    constructor
    · intro answered
      obtain rfl : own = cycles := Except.ok.inj answered
      exact .listing own
    · rintro ⟨⟩
      rfl
  | web address retries replies =>
    rw [Source.consult, Registry.consult_answer_eq_ok_iff, delivers_web_iff]

end BuildMatrix.Registry
