import SessionPlayback.Console.FaultPlan
import SessionPlayback.Console.Transcript
import SessionPlayback.Proofs.Console.Trace

/-!
Surfaces that never fail. A transcript takes whatever is sent to it, acknowledgements as long as
somebody counts them, and a fault plan that leaves a kind of call out does not make it fail.
-/

namespace SessionPlayback

theorem Transcript.serves {kind : Call.Kind} (hk : kind ≠ .acknowledge) (t : Transcript) :
    Console.Serves kind t := by
  rintro calls call rfl
  cases call with
  | acknowledge => exact absurd rfl hk
  | _ => rfl

/-- Counted acknowledgements stay counted. -/
theorem Transcript.next_counting {t : Transcript} {n : Nat} (h : t.acks = .counting n)
    (call : Call) : ∃ m, (Console.next call t).acks = .counting m := by
  cases call with
  | acknowledge =>
    refine ⟨n + 1, ?_⟩
    simp only [Console.next, Console.perform, perform, h]
    rfl
  | _ => exact ⟨n, h⟩

theorem Transcript.serves_acknowledge {t : Transcript} {n : Nat} (h : t.acks = .counting n) :
    Console.Serves .acknowledge t := by
  intro calls
  induction calls generalizing t n with
  | nil =>
    intro call hc
    cases call with
    | acknowledge =>
      simp only [Console.after_nil, Console.perform, perform, h]
      rfl
    | _ => cases hc
  | cons made rest ih =>
    obtain ⟨m, hm⟩ := next_counting h made
    exact ih hm

namespace Faulty

variable {σ : Type} [Console σ]

theorem next_plan (call : Call) (f : Faulty σ) : (Console.next call f).plan = f.plan := by
  simp only [Console.next, Console.perform, perform]
  split <;> rfl

theorem next_inner (call : Call) (f : Faulty σ) :
    (Console.next call f).inner = f.inner ∨
      (Console.next call f).inner = Console.next call f.inner := by
  simp only [Console.next, Console.perform, perform]
  split
  · exact .inl rfl
  · exact .inr rfl

theorem serves {kind : Call.Kind} {f : Faulty σ} (hp : f.plan.lookup kind = none)
    (hi : Console.Serves kind f.inner) : Console.Serves kind f := by
  intro calls
  induction calls generalizing f with
  | nil =>
    rintro call rfl
    have hdue : f.isDue call.kind = false := by simp [isDue, hp]
    simpa [Console.perform, perform, hdue] using hi.now
  | cons made rest ih =>
    refine ih (by rw [next_plan, hp]) ?_
    rcases next_inner made f with h | h
    · rwa [h]
    · rw [h]
      exact hi.next made

end Faulty

end SessionPlayback
