import Mathlib

/-!
# Transactions That May Fail

Computations over a store in which every statement may fail: by itself, or because the
environment makes it fail (a full disk, a lock that is not granted). The environment is
a stream of faults, consulted at every access. A transaction commits the store its body
leaves, or, when anything in it failed, leaves the store it started from.

What a computation does when it succeeds is the relation `Runs`, with one inversion rule
for each way of building computations. Two kinds of specification are derived from it:
`HasEffect` names the store a computation leaves, `Moves` relates it to the store before.

## Main results

* `Runs.of_bind`, `Runs.of_execute`, `Runs.of_query`: inversion.
* `hasEffect_seq`, `hasEffect_forM`, `moves_seq`, `moves_forM`: sequencing and loops.
* `safe_bind`, `safe_forM`: what succeeds from every store of an invariant.
* `answers_bind`: what a reading computation answers.
* `transaction_ok`, `transaction_error`: commit and rollback.
* `transaction_faultless`: faults only ever make a transaction fail.
-/

namespace Transaction

/-- A store with the number of accesses made to it. -/
structure Cursor (σ : Type) where
  store : σ
  clock : ℕ

/-- A computation over a store: it fails with an error, or returns a value and moves the
cursor. `faults` says which accesses the environment makes fail; faults can only make a
computation fail. -/
structure Tx (ε σ α : Type) where
  run : (faults : ℕ → Bool) → Cursor σ → Except ε (α × Cursor σ)
  faultless : ∀ faults s r, run faults s = .ok r → run (fun _ => false) s = .ok r

namespace Tx

variable {ε σ α β : Type}

/-- Returns a value. -/
def ret (a : α) : Tx ε σ α where
  run := fun _ s => .ok (a, s)
  faultless := fun _ _ _ h => h

/-- Runs a computation and then another one. -/
def andThen (tx : Tx ε σ α) (k : α → Tx ε σ β) : Tx ε σ β where
  run := fun faults s =>
    match tx.run faults s with
    | .error e => .error e
    | .ok (a, s') => (k a).run faults s'
  faultless := by
    intro faults s r h
    rcases htx : tx.run faults s with e | ⟨a, s'⟩
    · rw [htx] at h
      cases h
    · rw [htx] at h
      rw [tx.faultless faults s _ htx]
      exact (k a).faultless faults s' r h

instance : Monad (Tx ε σ) where
  pure := ret
  bind := andThen

/-- Executes a statement, which may fail by itself. -/
def execute (fault : ε) (statement : σ → Except ε σ) : Tx ε σ Unit where
  run := fun faults s =>
    if faults s.clock then .error fault
    else
      match statement s.store with
      | .error e => .error e
      | .ok store => .ok ((), ⟨store, s.clock + 1⟩)
  faultless := by
    intro faults s r h
    split at h
    · cases h
    · exact h

/-- Reads from the store, which may fail by itself. -/
def query (fault : ε) (read : σ → Except ε α) : Tx ε σ α where
  run := fun faults s =>
    if faults s.clock then .error fault
    else
      match read s.store with
      | .error e => .error e
      | .ok a => .ok (a, ⟨s.store, s.clock + 1⟩)
  faultless := by
    intro faults s r h
    split at h
    · cases h
    · exact h

/-- Fails, or returns a value, without access to the store. -/
def lift (result : Except ε α) : Tx ε σ α where
  run := fun _ s =>
    match result with
    | .error e => .error e
    | .ok a => .ok (a, s)
  faultless := fun _ _ _ h => h

/-- Replaces the error a computation fails with. -/
def mapError (f : ε → ε) (tx : Tx ε σ α) : Tx ε σ α where
  run := fun faults s =>
    match tx.run faults s with
    | .error e => .error (f e)
    | .ok r => .ok r
  faultless := by
    intro faults s r h
    split at h
    · cases h
    · next r' hr =>
        rw [tx.faultless faults s r' hr]
        exact h

/-- Runs a computation as one transaction: commit, or roll back. The commit is an access
of its own. -/
def transaction (fault : ε) (body : Tx ε σ α) (faults : ℕ → Bool) (store : σ) :
    Except ε α × σ :=
  match body.run faults ⟨store, 0⟩ with
  | .error e => (.error e, store)
  | .ok (a, s) => if faults s.clock then (.error fault, store) else (.ok a, s.store)

/-- What a computation that only reads answers from a store. -/
def answer (tx : Tx ε σ α) (faults : ℕ → Bool) (store : σ) : Except ε α :=
  match tx.run faults ⟨store, 0⟩ with
  | .error e => .error e
  | .ok (a, _) => .ok a

/-! ### What a computation does when it succeeds -/

/-- The computation can take a store to another one and return a value. -/
def Runs (tx : Tx ε σ α) (store : σ) (a : α) (store' : σ) : Prop :=
  ∃ faults clock clock', tx.run faults ⟨store, clock⟩ = .ok (a, ⟨store', clock'⟩)

/-- A computation that returns a value does nothing. -/
theorem Runs.of_pure {a b : α} {store store' : σ}
    (h : (pure a : Tx ε σ α).Runs store b store') : b = a ∧ store' = store := by
  obtain ⟨faults, clock, clock', h⟩ := h
  obtain ⟨rfl, hcursor⟩ := Prod.mk.inj (Except.ok.inj h)
  exact ⟨rfl, (congrArg Cursor.store hcursor).symm⟩

/-- A sequence runs its parts one after the other. -/
theorem Runs.of_bind {tx : Tx ε σ α} {k : α → Tx ε σ β} {store store'' : σ} {b : β}
    (h : (tx >>= k).Runs store b store'') :
    ∃ a store', tx.Runs store a store' ∧ (k a).Runs store' b store'' := by
  obtain ⟨faults, clock, clock'', h⟩ := h
  change (match tx.run faults ⟨store, clock⟩ with
    | .error e => Except.error e
    | .ok (a, s) => (k a).run faults s) = _ at h
  rcases htx : tx.run faults ⟨store, clock⟩ with e | ⟨a, ⟨store', clock'⟩⟩
  · rw [htx] at h
    cases h
  · rw [htx] at h
    exact ⟨a, store', ⟨faults, clock, clock', htx⟩, ⟨faults, clock', clock'', h⟩⟩

/-- A statement that runs did not fail. -/
theorem Runs.of_execute {fault : ε} {statement : σ → Except ε σ} {store store' : σ} {a : Unit}
    (h : (execute fault statement).Runs store a store') : statement store = .ok store' := by
  obtain ⟨faults, clock, clock', h⟩ := h
  simp only [execute] at h
  split at h
  · cases h
  · rcases hstatement : statement store with e | s
    · rw [hstatement] at h
      cases h
    · rw [hstatement] at h
      obtain ⟨-, hcursor⟩ := Prod.mk.inj (Except.ok.inj h)
      exact congrArg Except.ok (congrArg Cursor.store hcursor)

/-- A query that runs did not fail, and leaves the store alone. -/
theorem Runs.of_query {fault : ε} {read : σ → Except ε α} {store store' : σ} {a : α}
    (h : (query fault read).Runs store a store') : read store = .ok a ∧ store' = store := by
  obtain ⟨faults, clock, clock', h⟩ := h
  simp only [query] at h
  split at h
  · cases h
  · rcases hread : read store with e | b
    · rw [hread] at h
      cases h
    · rw [hread] at h
      obtain ⟨rfl, hcursor⟩ := Prod.mk.inj (Except.ok.inj h)
      exact ⟨rfl, (congrArg Cursor.store hcursor).symm⟩

/-- What is lifted into a computation does not touch the store. -/
theorem Runs.of_lift {result : Except ε α} {store store' : σ} {a : α}
    (h : (lift result : Tx ε σ α).Runs store a store') : result = .ok a ∧ store' = store := by
  obtain ⟨faults, clock, clock', h⟩ := h
  simp only [lift] at h
  split at h
  · cases h
  · obtain ⟨rfl, hcursor⟩ := Prod.mk.inj (Except.ok.inj h)
    exact ⟨rfl, (congrArg Cursor.store hcursor).symm⟩

/-- What a computation answered, it can run to. -/
theorem runs_of_answer {tx : Tx ε σ α} {faults : ℕ → Bool} {store : σ} {a : α}
    (h : tx.answer faults store = .ok a) : ∃ store', tx.Runs store a store' := by
  rw [answer] at h
  split at h
  · cases h
  · next a' s hrun =>
      obtain rfl := Except.ok.inj h
      exact ⟨s.store, faults, 0, s.clock, hrun⟩

/-- Another error makes no difference to success. -/
theorem Runs.of_mapError {f : ε → ε} {tx : Tx ε σ α} {store store' : σ} {a : α}
    (h : (tx.mapError f).Runs store a store') : tx.Runs store a store' := by
  obtain ⟨faults, clock, clock', h⟩ := h
  simp only [mapError] at h
  split at h
  · cases h
  · next r hr => exact ⟨faults, clock, clock', hr.trans h⟩

/-! ### The store a computation leaves -/

/-- Whenever the computation succeeds it returns the value and leaves the store `f` says. -/
def Yields (tx : Tx ε σ α) (f : σ → α × σ) : Prop :=
  ∀ store a store', tx.Runs store a store' → (a, store') = f store

/-- Whenever the computation succeeds it changes the store by `effect`. -/
def HasEffect (tx : Tx ε σ Unit) (effect : σ → σ) : Prop :=
  tx.Yields fun store => ((), effect store)

theorem yields_pure (a : α) : (pure a : Tx ε σ α).Yields fun store => (a, store) := by
  intro store b store' h
  obtain ⟨rfl, rfl⟩ := h.of_pure
  rfl

/-- What a sequence yields. -/
theorem yields_bind {tx : Tx ε σ α} {k : α → Tx ε σ β} {f : σ → α × σ} {g : α → σ → β × σ}
    (htx : tx.Yields f) (hk : ∀ a, (k a).Yields (g a)) :
    (tx >>= k).Yields fun store => g (f store).1 (f store).2 := by
  intro store b store'' h
  obtain ⟨a, store', htxs, hks⟩ := h.of_bind
  have hfirst := htx store a store' htxs
  change (b, store'') = g (f store).1 (f store).2
  rw [← hfirst]
  exact hk a store' b store'' hks

/-- Effects that are the same on every store. -/
theorem HasEffect.congr {tx : Tx ε σ Unit} {e e' : σ → σ} (h : tx.HasEffect e)
    (heq : ∀ store, e store = e' store) : tx.HasEffect e' := by
  rwa [show e' = e from funext fun store => (heq store).symm]

/-- Two effects in sequence. -/
theorem hasEffect_seq {tx tx' : Tx ε σ Unit} {e e' : σ → σ} (h : tx.HasEffect e)
    (h' : tx'.HasEffect e') : (tx >>= fun _ => tx').HasEffect fun store => e' (e store) :=
  yields_bind h fun _ => h'

/-- A statement has the effect it has whenever it does not fail. -/
theorem hasEffect_execute {fault : ε} {statement : σ → Except ε σ} {effect : σ → σ}
    (h : ∀ store store', statement store = .ok store' → store' = effect store) :
    (execute fault statement).HasEffect effect := by
  intro store a store' hruns
  rw [h store store' hruns.of_execute]

/-- A query leaves the store alone. -/
theorem yields_query {fault : ε} {read : σ → Except ε α} {value : σ → α}
    (h : ∀ store a, read store = .ok a → a = value store) :
    (query fault read).Yields fun store => (value store, store) := by
  intro store a store' hruns
  obtain ⟨hread, rfl⟩ := hruns.of_query
  rw [h _ a hread]

/-- A loop has an effect that composes as its turns do. -/
theorem hasEffect_forM {body : α → Tx ε σ Unit} {effect : α → σ → σ} {whole : List α → σ → σ}
    (h : ∀ a, (body a).HasEffect (effect a)) (hnil : ∀ s, whole [] s = s)
    (hcons : ∀ a items s, whole (a :: items) s = whole items (effect a s)) (items : List α) :
    (items.forM body).HasEffect (whole items) := by
  induction items with
  | nil =>
      have hwhole : whole [] = fun s => s := funext hnil
      rw [hwhole]
      exact yields_pure ()
  | cons a items ih =>
      have hwhole : whole (a :: items) = fun s => whole items (effect a s) := funext (hcons a items)
      rw [hwhole]
      exact hasEffect_seq (h a) ih

/-- A conditional has the effect of the branch it takes. -/
theorem hasEffect_ite {p : Prop} [Decidable p] {tx tx' : Tx ε σ Unit} {e e' : σ → σ}
    (h : tx.HasEffect e) (h' : tx'.HasEffect e') :
    (if p then tx else tx').HasEffect fun s => if p then e s else e' s := by
  split
  · exact h
  · exact h'

/-! ### Relating the stores before and after -/

/-- Whenever the computation succeeds, the stores before and after are related. -/
def Moves (R : σ → σ → Prop) (tx : Tx ε σ α) : Prop :=
  ∀ store a store', tx.Runs store a store' → R store store'

section Moves

variable {R : σ → σ → Prop}

/-- A computation moves stores as its effect does. -/
theorem HasEffect.moves {tx : Tx ε σ Unit} {effect : σ → σ} (h : tx.HasEffect effect)
    (hR : ∀ store, R store (effect store)) : tx.Moves R := by
  intro store a store' hruns
  rw [(Prod.mk.inj (h store a store' hruns)).2]
  exact hR store

theorem moves_pure (hrefl : ∀ store, R store store) (a : α) : (pure a : Tx ε σ α).Moves R := by
  intro store b store' hruns
  rw [hruns.of_pure.2]
  exact hrefl store

/-- A query moves nothing. -/
theorem moves_query (hrefl : ∀ store, R store store) (fault : ε) (read : σ → Except ε α) :
    (query fault read).Moves R := by
  intro store a store' hruns
  rw [hruns.of_query.2]
  exact hrefl store

/-- A statement moves stores as it does when it succeeds. -/
theorem moves_execute {fault : ε} {statement : σ → Except ε σ}
    (h : ∀ store store', statement store = .ok store' → R store store') :
    (execute fault statement).Moves R :=
  fun store _ store' hruns => h store store' hruns.of_execute

/-- A sequence moves stores step by step. -/
theorem moves_bind (htrans : ∀ s s' s'', R s s' → R s' s'' → R s s'') {tx : Tx ε σ α}
    {k : α → Tx ε σ β} (htx : tx.Moves R) (hk : ∀ a, (k a).Moves R) : (tx >>= k).Moves R := by
  intro store b store'' hruns
  obtain ⟨a, store', htxs, hks⟩ := hruns.of_bind
  exact htrans store store' store'' (htx store a store' htxs) (hk a store' b store'' hks)

theorem moves_ite {p : Prop} [Decidable p] {tx tx' : Tx ε σ α} (h : tx.Moves R)
    (h' : tx'.Moves R) : (if p then tx else tx').Moves R := by
  split
  · exact h
  · exact h'

/-- A loop moves the store as its turns do. -/
theorem moves_forM (hrefl : ∀ store, R store store)
    (htrans : ∀ s s' s'', R s s' → R s' s'' → R s s'') {body : α → Tx ε σ Unit}
    {items : List α} (h : ∀ a ∈ items, (body a).Moves R) : (items.forM body).Moves R := by
  induction items with
  | nil => exact moves_pure hrefl ()
  | cons a items ih =>
      exact moves_bind htrans (h a List.mem_cons_self) fun _ =>
        ih fun b hb => h b (List.mem_cons_of_mem a hb)

end Moves

/-! ### Success -/

/-- From the store the computation succeeds, when the environment makes nothing fail. -/
def Succeeds (tx : Tx ε σ α) (store : σ) : Prop :=
  ∀ clock, ∃ r, tx.run (fun _ => false) ⟨store, clock⟩ = .ok r

theorem succeeds_pure (a : α) (store : σ) : (pure a : Tx ε σ α).Succeeds store :=
  fun clock => ⟨(a, ⟨store, clock⟩), rfl⟩

/-- A statement succeeds from a store it accepts. -/
theorem succeeds_execute {fault : ε} {statement : σ → Except ε σ} {store store' : σ}
    (h : statement store = .ok store') : (execute fault statement).Succeeds store := by
  intro clock
  refine ⟨((), ⟨store', clock + 1⟩), ?_⟩
  simp [execute, h]

/-- A query succeeds from a store it can read. -/
theorem succeeds_query {fault : ε} {read : σ → Except ε α} {store : σ} {a : α}
    (h : read store = .ok a) : (query fault read).Succeeds store := by
  intro clock
  refine ⟨(a, ⟨store, clock + 1⟩), ?_⟩
  simp [query, h]

/-- A sequence succeeds when its second part does from wherever the first one may lead. -/
theorem succeeds_bind {tx : Tx ε σ α} {k : α → Tx ε σ β} {store : σ} (htx : tx.Succeeds store)
    (hk : ∀ a store', tx.Runs store a store' → (k a).Succeeds store') :
    (tx >>= k).Succeeds store := by
  intro clock
  obtain ⟨⟨a, store', clock'⟩, hrun⟩ := htx clock
  obtain ⟨r, hrest⟩ := hk a store' ⟨_, clock, clock', hrun⟩ clock'
  refine ⟨r, ?_⟩
  change (match tx.run (fun _ => false) ⟨store, clock⟩ with
    | .error e => Except.error e
    | .ok (a, s) => (k a).run (fun _ => false) s) = _
  rw [hrun]
  exact hrest

/-- From the store the computation returns the value, when the environment makes nothing fail,
and leaves the store alone. -/
def Answers (tx : Tx ε σ α) (store : σ) (a : α) : Prop :=
  ∀ clock, ∃ clock', tx.run (fun _ => false) ⟨store, clock⟩ = .ok (a, ⟨store, clock'⟩)

theorem answers_pure (a : α) (store : σ) : (pure a : Tx ε σ α).Answers store a :=
  fun clock => ⟨clock, rfl⟩

theorem answers_lift {result : Except ε α} {a : α} (h : result = .ok a) (store : σ) :
    (lift result : Tx ε σ α).Answers store a := by
  subst h
  exact fun clock => ⟨clock, rfl⟩

/-- A query answers what it reads. -/
theorem answers_query {fault : ε} {read : σ → Except ε α} {store : σ} {a : α}
    (h : read store = .ok a) : (query fault read).Answers store a := by
  intro clock
  refine ⟨clock + 1, ?_⟩
  simp [query, h]

/-- The second part of a sequence answers, given what the first one did. -/
theorem answers_bind {tx : Tx ε σ α} {k : α → Tx ε σ β} {store : σ} {a : α} {b : β}
    (htx : tx.Answers store a) (hk : (k a).Answers store b) : (tx >>= k).Answers store b := by
  intro clock
  obtain ⟨clock', hrun⟩ := htx clock
  obtain ⟨clock'', hrest⟩ := hk clock'
  refine ⟨clock'', ?_⟩
  change (match tx.run (fun _ => false) ⟨store, clock⟩ with
    | .error e => Except.error e
    | .ok (a, s) => (k a).run (fun _ => false) s) = _
  rw [hrun]
  exact hrest

/-- What is answered when nothing fails. -/
theorem Answers.answer_eq {tx : Tx ε σ α} {store : σ} {a : α} (h : tx.Answers store a) :
    tx.answer (fun _ => false) store = .ok a := by
  obtain ⟨clock, hrun⟩ := h 0
  rw [answer, hrun]

/-- An answer that comes although accesses fail also comes when none does. -/
theorem answer_faultless {tx : Tx ε σ α} {faults : ℕ → Bool} {store : σ} {a : α}
    (h : tx.answer faults store = .ok a) : tx.answer (fun _ => false) store = .ok a := by
  rw [answer] at h ⊢
  rcases hrun : tx.run faults ⟨store, 0⟩ with e | r
  · rw [hrun] at h
    cases h
  · rw [hrun] at h
    rw [tx.faultless faults _ r hrun]
    exact h

/-- An environment that makes accesses fail can suppress an answer, not change it. -/
theorem Answers.eq_of_answer {tx : Tx ε σ α} {store : σ} {a b : α} (h : tx.Answers store a)
    {faults : ℕ → Bool} (hanswer : tx.answer faults store = .ok b) : b = a :=
  Except.ok.inj ((answer_faultless hanswer).symm.trans h.answer_eq)

/-- What is made of an answer without access to the store. -/
theorem Answers.answer_lift {tx : Tx ε σ α} {store : σ} {a : α} (h : tx.Answers store a)
    (f : α → Except ε β) : (tx >>= fun a => lift (f a)).answer (fun _ => false) store = f a := by
  obtain ⟨clock, hrun⟩ := h 0
  have hbind : (tx >>= fun a => lift (f a)).run (fun _ => false) ⟨store, 0⟩ =
      match f a with
      | .error e => .error e
      | .ok b => .ok (b, ⟨store, clock⟩) := by
    change (match tx.run (fun _ => false) ⟨store, 0⟩ with
      | .error e => Except.error e
      | .ok (a, s) => (lift (f a)).run (fun _ => false) s) = _
    rw [hrun]
    rfl
  rw [answer, hbind]
  cases f a <;> rfl

/-- From every store of an invariant the computation succeeds, and it keeps the invariant. -/
structure Safe (I : σ → Prop) (tx : Tx ε σ α) : Prop where
  succeeds : ∀ store, I store → tx.Succeeds store
  keeps : tx.Moves fun store store' => I store → I store'

section Safe

variable {I : σ → Prop}

theorem safe_pure (a : α) : (pure a : Tx ε σ α).Safe I where
  succeeds := fun store _ => succeeds_pure a store
  keeps := moves_pure (fun _ h => h) a

/-- A statement is safe if it succeeds from every store of the invariant, and keeps it. -/
theorem safe_execute {fault : ε} {statement : σ → Except ε σ}
    (h : ∀ store, I store → ∃ store', statement store = .ok store' ∧ I store') :
    (execute fault statement).Safe I := by
  refine ⟨fun store hI => ?_, moves_execute fun store store' hrun hI => ?_⟩
  · obtain ⟨store', hrun, -⟩ := h store hI
    exact succeeds_execute hrun
  · obtain ⟨store'', hrun', hI'⟩ := h store hI
    rw [hrun] at hrun'
    exact Except.ok.inj hrun' ▸ hI'

/-- A query is safe if it can read every store of the invariant. -/
theorem safe_query {fault : ε} {read : σ → Except ε α}
    (h : ∀ store, I store → ∃ a, read store = .ok a) : (query fault read).Safe I := by
  refine ⟨fun store hI => ?_, moves_query (fun _ h => h) fault read⟩
  obtain ⟨a, hread⟩ := h store hI
  exact succeeds_query hread

/-- A sequence of safe computations is safe. -/
theorem safe_bind {tx : Tx ε σ α} {k : α → Tx ε σ β} (htx : tx.Safe I)
    (hk : ∀ a, (k a).Safe I) : (tx >>= k).Safe I where
  succeeds := fun store hI => succeeds_bind (htx.succeeds store hI) fun a store' hruns =>
    (hk a).succeeds store' (htx.keeps store a store' hruns hI)
  keeps := moves_bind (fun _ _ _ h h' hI => h' (h hI)) htx.keeps fun a => (hk a).keeps

theorem safe_ite {p : Prop} [Decidable p] {tx tx' : Tx ε σ α} (h : tx.Safe I)
    (h' : tx'.Safe I) : (if p then tx else tx').Safe I := by
  split
  · exact h
  · exact h'

theorem safe_forM {body : α → Tx ε σ Unit} {items : List α} (h : ∀ a ∈ items, (body a).Safe I) :
    (items.forM body).Safe I := by
  induction items with
  | nil => exact safe_pure ()
  | cons a items ih =>
      exact safe_bind (h a List.mem_cons_self) fun _ =>
        ih fun b hb => h b (List.mem_cons_of_mem a hb)

end Safe

/-! ### Commit and rollback -/

/-- A transaction whose body succeeds commits, when the environment makes nothing fail. -/
theorem transaction_succeeds {fault : ε} {body : Tx ε σ α} {store : σ} (h : body.Succeeds store) :
    ∃ a store', transaction fault body (fun _ => false) store = (.ok a, store') := by
  obtain ⟨⟨a, s⟩, hrun⟩ := h 0
  exact ⟨a, s.store, by simp [transaction, hrun]⟩

/-- A transaction that only reads leaves the store, when the environment makes nothing fail. -/
theorem Answers.transaction_eq {tx : Tx ε σ α} {store : σ} {a : α} (h : tx.Answers store a)
    (fault : ε) : tx.transaction fault (fun _ => false) store = (.ok a, store) := by
  obtain ⟨clock, hrun⟩ := h 0
  rw [transaction, hrun]
  rfl

/-- **Commit**: a transaction that succeeds ran its body. -/
theorem transaction_ok {fault : ε} {body : Tx ε σ α} {faults : ℕ → Bool} {store store' : σ}
    {a : α} (hok : transaction fault body faults store = (.ok a, store')) :
    body.Runs store a store' := by
  rw [transaction] at hok
  rcases hbody : body.run faults ⟨store, 0⟩ with e | ⟨b, s⟩
  · rw [hbody] at hok
    cases (Prod.mk.inj hok).1
  · rw [hbody] at hok
    simp only at hok
    split at hok
    · cases (Prod.mk.inj hok).1
    · obtain ⟨hb, rfl⟩ := Prod.mk.inj hok
      obtain rfl := Except.ok.inj hb
      exact ⟨faults, 0, s.clock, hbody⟩

/-- A transaction that succeeds also does so when the environment makes nothing fail. -/
theorem transaction_faultless {fault : ε} {body : Tx ε σ α} {faults : ℕ → Bool}
    {store store' : σ} {a : α} (hok : transaction fault body faults store = (.ok a, store')) :
    transaction fault body (fun _ => false) store = (.ok a, store') := by
  rw [transaction] at hok ⊢
  rcases hbody : body.run faults ⟨store, 0⟩ with e | ⟨b, s⟩
  · rw [hbody] at hok
    cases (Prod.mk.inj hok).1
  · rw [hbody] at hok
    rw [body.faultless faults _ _ hbody]
    simp only at hok
    split at hok
    · cases (Prod.mk.inj hok).1
    · exact hok

/-- **Rollback**: a transaction that fails leaves the store it started from. -/
theorem transaction_error {fault : ε} {body : Tx ε σ α} {faults : ℕ → Bool} {store store' : σ}
    {e : ε} (herror : transaction fault body faults store = (.error e, store')) :
    store' = store := by
  rw [transaction] at herror
  rcases hbody : body.run faults ⟨store, 0⟩ with e' | ⟨a, s⟩
  · rw [hbody] at herror
    exact (Prod.mk.inj herror).2.symm
  · rw [hbody] at herror
    simp only at herror
    split at herror
    · exact (Prod.mk.inj herror).2.symm
    · cases (Prod.mk.inj herror).1

end Tx

end Transaction
