import Rrq.Concurrent.Conduct

-- One program amid surroundings that move the state between its operations. An operation waits
-- until the state lets it go ahead.

structure Setting (Op : Type) (Reply : Op → Type) (Chance σ : Type) where
  exec : (op : Op) → Chance → σ → Reply op × σ
  ready : Op → σ → Bool
  moves : σ → σ → Prop

namespace Setting

variable {Op : Type} {Reply : Op → Type} {Chance σ Stage α : Type}

-- What is left of a program, and the state that it has come to.
inductive Reach (m : Setting Op Reply Chance σ) (prog : Prog Op Reply α) (start : σ) :
    Prog Op Reply α → σ → Prop
  | start : Reach m prog start prog start
  | run {op : Op} {next : Reply op → Prog Op Reply α} {state : σ} (chance : Chance) :
      Reach m prog start (.call op next) state → m.ready op state = true →
        Reach m prog start (next (m.exec op chance state).1) (m.exec op chance state).2
  | move {later : Prog Op Reply α} {state after : σ} : Reach m prog start later state →
      m.moves state after → Reach m prog start later after

-- The state is as the stage of the program says, whatever the surroundings do and whatever
-- the conduct lets the program do.
structure Fits (m : Setting Op Reply Chance σ) (c : Conduct Op Reply Stage)
    (within : Stage → σ → Prop) : Prop where
  moves : ∀ stage state after, within stage state → m.moves state after → within stage after
  exec : ∀ stage op chance state, within stage state → c.allows stage op →
    m.ready op state = true →
      c.possible stage op (m.exec op chance state).1 ∧
        within (c.next stage op (m.exec op chance state).1) (m.exec op chance state).2

variable {m : Setting Op Reply Chance σ} {c : Conduct Op Reply Stage} {within : Stage → σ → Prop}
  {post : α → Stage → Prop} {prog later : Prog Op Reply α} {start state : σ} {stage : Stage}

theorem conforms_reach (hf : m.Fits c within) (hp : c.Conforms post prog stage)
    (hs : within stage start) (hr : m.Reach prog start later state) :
    ∃ stage, c.Conforms post later stage ∧ within stage state := by
  induction hr with
  | start => exact ⟨stage, hp, hs⟩
  | run chance _ hready ih =>
      obtain ⟨stage, hcode, hstate⟩ := ih
      obtain ⟨hpossible, hafter⟩ := hf.exec stage _ chance _ hstate hcode.1 hready
      exact ⟨_, hcode.2 _ hpossible, hafter⟩
  | move _ hm ih =>
      obtain ⟨stage, hcode, hstate⟩ := ih
      exact ⟨stage, hcode, hf.moves stage _ _ hstate hm⟩

-- A run that nothing disturbs, as far as the chances go.
def follow (m : Setting Op Reply Chance σ) :
    List Chance → Prog Op Reply α → σ → Option (Prog Op Reply α × σ)
  | [], prog, state => some (prog, state)
  | _ :: _, .ret _, _ => none
  | chance :: chances, .call op next, state =>
      if m.ready op state then
        m.follow chances (next (m.exec op chance state).1) (m.exec op chance state).2
      else none

theorem exists_reach {chances : List Chance} {test : Prog Op Reply α × σ → Bool}
    (hr : m.Reach prog start later state)
    (ht : (m.follow chances later state).map test = some true) :
    ∃ last after, m.Reach prog start last after ∧ test (last, after) = true := by
  induction chances generalizing later state with
  | nil => exact ⟨later, state, hr, Option.some.inj ht⟩
  | cons chance chances ih =>
      cases later with
      | ret value => cases ht
      | call op next =>
          unfold follow at ht
          by_cases hready : m.ready op state = true
          · rw [if_pos hready] at ht
            exact ih (hr.run chance hready) ht
          · rw [if_neg hready] at ht
            cases ht

end Setting
