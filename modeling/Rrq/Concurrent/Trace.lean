import Rrq.Concurrent.Prog

-- The histories of a program: the operations it issued, each with the reply it got.

namespace Prog

variable {Op : Type} {Reply : Op → Type} {α β : Type}

inductive Trace : Prog Op Reply α → List ((op : Op) × Reply op) → α → Prop
  | ret (value : α) : Trace (.ret value) [] value
  | call {op : Op} {next : Reply op → Prog Op Reply α} {reply : Reply op}
      {rest : List ((op : Op) × Reply op)} {value : α} (h : Trace (next reply) rest value) :
      Trace (.call op next) (⟨op, reply⟩ :: rest) value

variable {trace : List ((op : Op) × Reply op)} {value : α}

@[simp] theorem trace_ret {answer : α} :
    Trace (ret answer : Prog Op Reply α) trace value ↔ trace = [] ∧ value = answer := by
  constructor
  · rintro ⟨⟩
    exact ⟨rfl, rfl⟩
  · rintro ⟨rfl, rfl⟩
    exact .ret _

theorem trace_call {op : Op} {next : Reply op → Prog Op Reply α} :
    Trace (call op next) trace value ↔
      ∃ reply rest, trace = ⟨op, reply⟩ :: rest ∧ Trace (next reply) rest value := by
  constructor
  · rintro (_ | @⟨_, _, reply, rest, _, h⟩)
    exact ⟨reply, rest, rfl, h⟩
  · rintro ⟨reply, rest, rfl, h⟩
    exact .call h

theorem trace_perform_bind {op : Op} {next : Reply op → Prog Op Reply α} :
    Trace (perform op >>= next) trace value ↔
      ∃ reply rest, trace = ⟨op, reply⟩ :: rest ∧ Trace (next reply) rest value :=
  trace_call

-- A history of one program after another is a history of each, one after another.
theorem trace_bind {prog : Prog Op Reply β} {rest : β → Prog Op Reply α} :
    Trace (prog >>= rest) trace value ↔
      ∃ before middle after, trace = before ++ after ∧ Trace prog before middle ∧
        Trace (rest middle) after value := by
  induction prog generalizing trace with
  | ret middle =>
      simp only [ret_bind, trace_ret]
      constructor
      · intro h
        exact ⟨[], middle, trace, rfl, ⟨rfl, rfl⟩, h⟩
      · rintro ⟨_, _, after, rfl, ⟨rfl, rfl⟩, h⟩
        exact h
  | call op next ih =>
      simp only [call_bind, trace_call, ih]
      constructor
      · rintro ⟨reply, _, rfl, before, middle, after, rfl, hb, ha⟩
        exact ⟨⟨op, reply⟩ :: before, middle, after, rfl, ⟨reply, before, rfl, hb⟩, ha⟩
      · rintro ⟨_, middle, after, rfl, ⟨reply, before, rfl, hb⟩, ha⟩
        exact ⟨reply, before ++ after, rfl, before, middle, after, rfl, hb, ha⟩

end Prog
