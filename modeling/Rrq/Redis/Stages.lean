import Rrq.Redis.Script

-- What holds where a script stops, when its calls rely on what the calls before them found.

namespace Script

variable {σ α β : Type}

-- From every store as described the script stops in one as described, wherever it stops.
def Leads (before after : σ → Prop) (script : Script σ α) : Prop :=
  ∀ budget store, before store → after (script budget store).2

variable {before after : σ → Prop}

theorem Leads.mono {weaker : σ → Prop} {script : Script σ α} (hs : Leads before after script)
    (h : ∀ store, weaker store → before store) : Leads weaker after script :=
  fun budget store hw => hs budget store (h store hw)

theorem Leads.widen {wider : σ → Prop} {script : Script σ α} (hs : Leads before after script)
    (h : ∀ store, after store → wider store) : Leads before wider script :=
  fun budget store hb => h _ (hs budget store hb)

theorem Keeps.leads {script : Script σ α} (hs : Keeps after script)
    (h : ∀ store, before store → after store) : Leads before after script :=
  fun budget store hb => hs budget store (h store hb)

theorem Leads.pure (h : ∀ store, before store → after store) (value : α) :
    Leads before after (Script.pure value : Script σ α) := fun _ store hb => h store hb

-- The stage after a call may rely on the answer of the call and on what it did.
theorem Leads.call_bind {mid : α → σ → Prop} {command : σ → Option (α × σ)}
    {next : α → Script σ β} (h : ∀ store, before store → after store)
    (hc : ∀ store value later, command store = some (value, later) → before store →
      mid value later)
    (hn : ∀ value, Leads (mid value) after (next value)) :
    Leads before after (call command >>= next) := by
  intro budget store hb
  change after (Script.bind (call command) next budget store).2
  unfold Script.bind Script.call
  match budget, hcommand : command store with
  | some 0, _ => exact h store hb
  | none, none => exact h store hb
  | some (n + 1), none => exact h store hb
  | none, some (value, later) => exact hn value _ _ (hc store value later hcommand hb)
  | some (n + 1), some (value, later) => exact hn value _ _ (hc store value later hcommand hb)

theorem Leads.ask_bind {query : σ → α} {next : α → Script σ β}
    (h : ∀ store, before store → after store)
    (hn : ∀ value, Leads (fun store => before store ∧ query store = value) after (next value)) :
    Leads before after (ask query >>= next) :=
  Leads.call_bind h (fun _ _ _ heq hb => by
    obtain ⟨rfl, rfl⟩ := by simpa using heq
    exact ⟨hb, rfl⟩) hn

theorem Leads.write_bind {mid : σ → Prop} {update : σ → σ} {next : Unit → Script σ β}
    (h : ∀ store, before store → after store) (hu : ∀ store, before store → mid (update store))
    (hn : Leads mid after (next ())) : Leads before after (write update >>= next) :=
  Leads.call_bind h (fun store _ _ heq hb => by
    obtain rfl := by simpa using heq
    exact hu store hb) fun _ => hn

theorem Leads.write {update : σ → σ} (h : ∀ store, before store → after store)
    (hu : ∀ store, before store → after (update store)) : Leads before after (write update) := by
  intro budget store hb
  unfold Script.write Script.call
  match budget with
  | some 0 => exact h store hb
  | none | some (n + 1) => exact hu store hb

-- The part before keeps what is asked of the part after it.
theorem Leads.bind {script : Script σ α} {next : α → Script σ β} (hs : Keeps before script)
    (h : ∀ store, before store → after store) (hn : ∀ value, Leads before after (next value)) :
    Leads before after (script >>= next) := by
  intro budget store hb
  have hfirst := hs budget store hb
  change after (Script.bind script next budget store).2
  unfold Script.bind
  split
  · rename_i heq
    exact h _ (by simpa [heq] using hfirst)
  · rename_i heq
    exact hn _ _ _ (by simpa [heq] using hfirst)

theorem Leads.ite {c : Prop} [Decidable c] {first second : Script σ α}
    (hf : c → Leads before after first) (hs : ¬ c → Leads before after second) :
    Leads before after (if c then first else second) := by
  split
  · exact hf ‹_›
  · exact hs ‹_›

theorem Leads.pcall {script : Script σ α} (hs : Leads before after script) :
    Leads before after (pcall script) := by
  intro budget store h
  have hrun := hs budget store h
  unfold Script.pcall
  split <;> rename_i heq <;> simpa [heq] using hrun

-- What is done with the answer alone changes nothing.
theorem Leads.answer {script : Script σ α} (hs : Leads before after script) (f : α → β) :
    Leads before after (script >>= fun value => Script.pure (f value)) := by
  intro budget store h
  have hrun := hs budget store h
  change after (Script.bind script _ budget store).2
  unfold Script.bind
  split <;> rename_i heq <;> simpa [heq, Script.pure] using hrun

theorem Leads.run {script : Script σ α} (hs : Leads before after script) (budget : Budget)
    {store : σ} (h : before store) : after (script.run budget store).2 := by
  have hrun := hs budget store h
  unfold Script.run
  split <;> rename_i heq <;> simpa [heq] using hrun

-- What holds where a script has come to its end.
def Completes (before : σ → Prop) (post : α → σ → Prop) (script : Script σ α) : Prop :=
  ∀ budget store value rest later, before store →
    script budget store = (some (value, rest), later) → post value later

variable {post : α → σ → Prop} {last : β → σ → Prop}

theorem Completes.pure {value : α} (h : ∀ store, before store → post value store) :
    Completes before post (Script.pure value : Script σ α) := by
  intro budget store answer rest later hb heq
  obtain ⟨⟨rfl, -⟩, rfl⟩ := by simpa [Script.pure] using heq
  exact h store hb

theorem Completes.bind (post : α → σ → Prop) {script : Script σ α} {next : α → Script σ β}
    (hs : Completes before post script) (hn : ∀ value, Completes (post value) last (next value)) :
    Completes before last (script >>= next) := by
  intro budget store answer rest later hb heq
  change Script.bind script next budget store = _ at heq
  unfold Script.bind at heq
  split at heq
  · cases heq
  · rename_i hfirst
    exact hn _ _ _ _ _ _ (hs _ _ _ _ _ hb hfirst) heq

theorem Completes.call {command : σ → Option (α × σ)}
    (hc : ∀ store value later, command store = some (value, later) → before store →
      post value later) : Completes before post (call command) := by
  intro budget store answer rest later hb heq
  have hrun := Lenient.call command _ _ _ _ _ heq
  cases hcommand : command store with
  | none => simp [Script.call, hcommand] at hrun
  | some result =>
      obtain ⟨rfl, rfl⟩ := by simpa [Script.call, hcommand] using hrun
      exact hc _ _ _ hcommand hb

theorem Completes.ask (query : σ → α) :
    Completes before (fun value store => before store ∧ query store = value) (ask query) :=
  Completes.call fun store _ _ heq hb => by
    obtain ⟨rfl, rfl⟩ := by simpa using heq
    exact ⟨hb, rfl⟩

theorem Completes.write {update : σ → σ} (mid : σ → Prop)
    (hu : ∀ store, before store → mid (update store)) :
    Completes before (fun _ => mid) (write update) :=
  Completes.call fun store _ _ heq hb => by
    obtain rfl := by simpa using heq
    exact hu store hb

theorem Completes.ite {c : Prop} [Decidable c] {first second : Script σ α}
    (hf : c → Completes before post first) (hs : ¬ c → Completes before post second) :
    Completes before post (if c then first else second) := by
  split
  · exact hf ‹_›
  · exact hs ‹_›

end Script
