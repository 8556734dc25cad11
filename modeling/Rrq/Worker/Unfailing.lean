import Rrq.Concurrent.Outlook
import Rrq.Worker.World

-- A program run alone while no command fails.

namespace Rrq

-- The command is carried out, and Redis takes it.
def taken (op : Op) (chance : Chance) (w : World) : Bool :=
  match op with
  | .redis c => chance.fault = .none && (c.exec chance.fault chance.page w.store).1.isOk
  | _ => true

def unfailing (pid : Pid) (role : Role) (oracle : Nat → Op → Chance) :
    Watch Op Op.Reply Chance World where
  exec := World.exec pid role
  oracle
  here _ := false
  passes n op w := taken op (oracle n op) w

-- The store is only written by commands.
theorem World.exec_store {pid : Pid} {role : Role} {op : Op} (hop : ∀ c, op ≠ .redis c)
    (chance : Chance) (w : World) : (World.exec pid role op chance w).2.store = w.store := by
  cases op
  case redis c => exact absurd rfl (hop c)
  all_goals rfl

section Clears

variable {α : Type} {pid : Pid} {role : Role} {oracle : Nat → Op → Chance}
  {post : α → World → Prop} {n : Nat} {w : World}

theorem clears_redis {c : Cmd} {next : Except RedisError c.Answer → Proc α}
    (h : ∀ page answer w', c.exec .none page w.store = (.ok answer, w'.store) → w'.mem = w.mem →
      (unfailing pid role oracle).Clears post (next (.ok answer)) (n + 1) w') :
    (unfailing pid role oracle).Clears post (redis c >>= next) n w := by
  apply Watch.clears_call
  intro htaken
  obtain ⟨hfault, hok⟩ : (oracle n (.redis c)).fault = .none ∧
      (c.exec (oracle n (.redis c)).fault (oracle n (.redis c)).page w.store).1.isOk = true := by
    simpa [unfailing, taken] using htaken
  rw [hfault] at hok
  cases hexec : c.exec .none (oracle n (.redis c)).page w.store with
  | mk answer store =>
      rw [hexec] at hok
      cases answer with
      | error error => cases hok
      | ok answer =>
          have hfirst : (World.exec pid role (.redis c) (oracle n (.redis c)) w).1 = .ok answer := by
            simp [World.exec, hfault, hexec]
          have hstore : (World.exec pid role (.redis c) (oracle n (.redis c)) w).2.store = store := by
            simp [World.exec, hfault, hexec]
          show (unfailing pid role oracle).Clears post
            (next (World.exec pid role (.redis c) (oracle n (.redis c)) w).1) _ _
          rw [hfirst]
          apply h (oracle n (.redis c)).page answer
          · rw [hexec]
            exact congrArg (Prod.mk _) hstore.symm
          · rfl

-- Any other operation may answer anything, and leaves the store alone.
theorem clears_perform {op : Op} {next : op.Reply → Proc α} (hop : ∀ c, op ≠ .redis c)
    (h : ∀ reply w', w'.store = w.store →
      (unfailing pid role oracle).Clears post (next reply) (n + 1) w') :
    (unfailing pid role oracle).Clears post (perform op >>= next) n w :=
  Watch.clears_call fun _ => h _ _ (World.exec_store hop _ w)

end Clears

end Rrq
