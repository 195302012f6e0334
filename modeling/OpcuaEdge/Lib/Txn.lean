import Mathlib.Data.List.Basic

/-!
# A database connection with transactions

`Conn δ` is one connection to a database with contents of type `δ`: what is committed, and the
working copy when a transaction is open. Outside a transaction a statement that succeeds is
durable at once. Beginning a transaction inside one fails, and so does ending one that is not
open. A failing `COMMIT`, `ROLLBACK` or statement either leaves an open transaction as it was or
discards it; closing the connection discards it.

What fails is decided by the outside: an `Engine` answers every call with a `Verdict`. A
`Session` runs a connection against an engine and logs each call with its verdict and with
whether a transaction was open when it was made. `Entry.strands` singles out the calls that were
to end a transaction and failed to.
-/

namespace Txn

/-- The engine's answer: success, or a failure that may also discard the open transaction. -/
inductive Verdict where
  | ok
  | fail (discards : Bool)
  deriving DecidableEq, Repr

/-- The data in the file, and the data that an open transaction sees. -/
structure Conn (δ : Type) where
  committed : δ
  txn : Option δ := none

namespace Conn

variable {δ : Type}

/-- What a statement of this connection sees. -/
def view (c : Conn δ) : δ := c.txn.getD c.committed

/-- Outside a transaction a statement sees what is committed, inside one the working copy. -/
theorem view_outside {c : Conn δ} (h : c.txn = none) : c.view = c.committed := by
  rw [view, h, Option.getD_none]

/-- In a transaction the connection sees what the transaction has done so far. -/
theorem view_inside {c : Conn δ} {w : δ} (h : c.txn = some w) : c.view = w := by
  rw [view, h, Option.getD_some]

/-- `BEGIN`. There are no nested transactions. -/
def begin (v : Verdict) (c : Conn δ) : Bool × Conn δ :=
  match v, c.txn with
  | .ok, none => (true, { c with txn := some c.committed })
  | _, _ => (false, c)

/-- `COMMIT`. It fails outside a transaction, and a failure may leave the transaction open or
abandon it. -/
def commit (v : Verdict) (c : Conn δ) : Bool × Conn δ :=
  match v, c.txn with
  | .ok, some w => (true, { committed := w })
  | .fail true, some _ => (false, { c with txn := none })
  | _, _ => (false, c)

/-- `ROLLBACK`, which can fail as well. -/
def rollback (v : Verdict) (c : Conn δ) : Bool × Conn δ :=
  match v, c.txn with
  | .ok, some _ => (true, { c with txn := none })
  | .fail true, some _ => (false, { c with txn := none })
  | _, _ => (false, c)

/-- A statement that changes the data; `change` is `none` where it violates a constraint. -/
def exec (v : Verdict) (change : δ → Option δ) (c : Conn δ) : Bool × Conn δ :=
  match v with
  | .fail true => (false, { c with txn := none })
  | .fail false => (false, c)
  | .ok =>
    match change c.view, c.txn with
    | none, _ => (false, c)
    | some w, some _ => (true, { c with txn := some w })
    | some w, none => (true, { c with committed := w })

/-- Closing the connection abandons an open transaction. -/
def close (c : Conn δ) : Conn δ := { c with txn := none }

end Conn

/-- The kinds of calls an engine answers. -/
inductive Op where
  | prepare
  | begin
  | commit
  | rollback
  | step
  deriving DecidableEq, Repr

/-- The answers of the library, with a state of its own: an answer may depend on all calls
before. -/
structure Engine (σ : Type) where
  answer : Op → σ → Verdict × σ

/-- Every call is answered with success. -/
def Engine.NeverRefuses {σ : Type} (engine : Engine σ) : Prop :=
  ∀ op env, (engine.answer op env).1 = .ok

/-- The engine that refuses nothing. -/
def willingEngine : Engine Unit where
  answer _ env := (.ok, env)

theorem willingEngine_neverRefuses : willingEngine.NeverRefuses := fun _ _ => rfl

/-! ### Calls that are granted

As long as every call is answered with success, the engine's own state is all that decides about
the calls to come. -/

namespace Engine

variable {σ : Type}

/-- The engine's state after it has answered these calls. -/
def after (engine : Engine σ) : List Op → σ → σ
  | [], env => env
  | op :: rest, env => engine.after rest (engine.answer op env).2

/-- These calls, made one after the other, are all answered with success. -/
def Grants (engine : Engine σ) : List Op → σ → Prop
  | [], _ => True
  | op :: rest, env => (engine.answer op env).1 = .ok ∧ engine.Grants rest (engine.answer op env).2

/-- Whether calls are granted is decided by asking for them. -/
instance Grants.decidable (engine : Engine σ) :
    ∀ (ops : List Op) (env : σ), Decidable (engine.Grants ops env)
  | [], _ => instDecidableTrue
  | op :: rest, env =>
    haveI := Grants.decidable engine rest (engine.answer op env).2
    inferInstanceAs (Decidable (_ ∧ _))

theorem after_append (engine : Engine σ) (first second : List Op) (env : σ) :
    engine.after (first ++ second) env = engine.after second (engine.after first env) := by
  induction first generalizing env with
  | nil => rfl
  | cons op rest ih => exact ih _

/-- A list of calls is granted if its first part is, and its second part from there on. -/
theorem grants_append (engine : Engine σ) (first second : List Op) (env : σ) :
    engine.Grants (first ++ second) env ↔
      engine.Grants first env ∧ engine.Grants second (engine.after first env) := by
  induction first generalizing env with
  | nil => exact ⟨fun h => ⟨trivial, h⟩, And.right⟩
  | cons op rest ih =>
    show _ ∧ engine.Grants (rest ++ second) _ ↔ (_ ∧ engine.Grants rest _) ∧ _
    rw [ih, and_assoc]
    rfl

/-- An engine that refuses nothing grants whatever it is asked. -/
theorem NeverRefuses.grants {engine : Engine σ} (h : engine.NeverRefuses) (ops : List Op)
    (env : σ) : engine.Grants ops env := by
  induction ops generalizing env with
  | nil => exact trivial
  | cons op rest ih => exact ⟨h op env, ih _⟩

end Engine

/-- A logged call. -/
structure Entry where
  op : Op
  inTxn : Bool
  verdict : Verdict
  deriving DecidableEq, Repr

/-- The call was to end an open transaction, failed, and left it open. -/
def Entry.strands (e : Entry) : Prop :=
  (e.op = .commit ∨ e.op = .rollback) ∧ e.inTxn = true ∧ e.verdict = .fail false

instance (e : Entry) : Decidable e.strands := inferInstanceAs (Decidable (_ ∧ _ ∧ _))

/-- A connection, the state of its engine, and the calls made so far. -/
structure Session (σ δ : Type) where
  conn : Conn δ
  env : σ
  log : List Entry := []

namespace Session

variable {σ δ : Type}

/-- Asks the engine about a call on the session's connection and logs it. -/
def ask (engine : Engine σ) (op : Op) (s : Session σ δ) : Verdict × Session σ δ :=
  let r := engine.answer op s.env
  (r.1, { s with env := r.2, log := s.log ++ [⟨op, s.conn.txn.isSome, r.1⟩] })

/-- Runs the connection's part of a call under the engine's verdict. -/
def call (engine : Engine σ) (op : Op) (run : Verdict → Conn δ → Bool × Conn δ)
    (s : Session σ δ) : Bool × Session σ δ :=
  let a := s.ask engine op
  let c := run a.1 s.conn
  (c.1, { a.2 with conn := c.2 })

/-- Preparing a statement does not touch the connection. -/
def prepare (engine : Engine σ) (s : Session σ δ) : Bool × Session σ δ :=
  let a := s.ask engine .prepare
  (a.1 = .ok, a.2)

/-- `BEGIN` through the engine. -/
def begin (engine : Engine σ) (s : Session σ δ) : Bool × Session σ δ :=
  s.call engine .begin Conn.begin

/-- `COMMIT` through the engine. -/
def commit (engine : Engine σ) (s : Session σ δ) : Bool × Session σ δ :=
  s.call engine .commit Conn.commit

/-- `ROLLBACK` through the engine. -/
def rollback (engine : Engine σ) (s : Session σ δ) : Bool × Session σ δ :=
  s.call engine .rollback Conn.rollback

/-- A statement that changes data; `none` stands for a constraint that fails. -/
def step (engine : Engine σ) (change : δ → Option δ) (s : Session σ δ) : Bool × Session σ δ :=
  s.call engine .step fun v => Conn.exec v change

/-- Several statements in one text: they run one by one, up to the first that fails. -/
def script (engine : Engine σ) : List (δ → Option δ) → Session σ δ → Bool × Session σ δ
  | [], s => (true, s)
  | change :: rest, s =>
    let r := s.step engine change
    if r.1 then script engine rest r.2 else r

/-- A query step: the row it delivers, if any. -/
def query {ρ : Type} (engine : Engine σ) (select : δ → Option ρ) (s : Session σ δ) :
    Option ρ × Session σ δ :=
  let a := s.ask engine .step
  match a.1 with
  | .ok => (select s.conn.view, a.2)
  | .fail true => (none, { a.2 with conn.txn := none })
  | .fail false => (none, a.2)

/-- Closing is not a call that can fail. -/
def close (s : Session σ δ) : Session σ δ := { s with conn := s.conn.close }

/-! ## What a successful call leaves behind

Of a call that returned success both the verdict of the engine and the state before it are known,
and so is the state after it. -/

@[simp] theorem prepare_conn (engine : Engine σ) (s : Session σ δ) :
    (s.prepare engine).2.conn = s.conn := rfl

/-- A statement that succeeded made its change to what the connection sees, inside the open
transaction or durably. -/
theorem step_ok {engine : Engine σ} {change : δ → Option δ} {s : Session σ δ}
    (h : (s.step engine change).1 = true) :
    ∃ w, change s.conn.view = some w ∧ (s.step engine change).2.conn.view = w ∧
      (s.conn.txn = none ∧ (s.step engine change).2.conn = { committed := w } ∨
        s.conn.txn.isSome ∧
          (s.step engine change).2.conn = { s.conn with txn := some w }) := by
  unfold step call at h ⊢
  simp only at h ⊢
  unfold Conn.exec at h ⊢
  cases hv : (s.ask engine .step).1 with
  | fail discards => rw [hv] at h; cases discards <;> cases h
  | ok =>
    rw [hv] at h
    cases hw : change s.conn.view with
    | none => simp [hw] at h
    | some w =>
      -- outside a transaction the change is committed at once, inside it is kept in txn
      cases htxn : s.conn.txn with
      | none => exact ⟨w, rfl, by simp [Conn.view], .inl ⟨rfl, by simp⟩⟩
      | some w' => exact ⟨w, rfl, by simp [Conn.view], .inr ⟨rfl, by simp⟩⟩

/-- A transaction begins only outside one, as a copy of what is committed. -/
theorem begin_ok {engine : Engine σ} {s : Session σ δ} (h : (s.begin engine).1 = true) :
    s.conn.txn = none ∧
      (s.begin engine).2.conn = { s.conn with txn := some s.conn.committed } := by
  unfold begin call Conn.begin at h ⊢
  simp only at h ⊢
  cases hv : (s.ask engine .begin).1 with
  | fail discards => rw [hv] at h; cases h
  | ok =>
    cases htxn : s.conn.txn with
    | none => exact ⟨rfl, rfl⟩
    | some w => rw [hv, htxn] at h; cases h

/-- A commit that succeeded made the working copy durable. -/
theorem commit_ok {engine : Engine σ} {s : Session σ δ} (h : (s.commit engine).1 = true) :
    ∃ w, s.conn.txn = some w ∧ (s.commit engine).2.conn = { committed := w } := by
  unfold commit call Conn.commit at h ⊢
  simp only at h ⊢
  cases hv : (s.ask engine .commit).1 with
  | fail discards => rw [hv] at h; cases discards <;> cases htxn : s.conn.txn <;> simp [htxn] at h
  | ok =>
    cases htxn : s.conn.txn with
    | none => rw [hv, htxn] at h; cases h
    | some w => exact ⟨w, rfl, rfl⟩

/-! ## Where a transaction is open

Only `BEGIN` opens one. So outside a transaction most calls stay outside. -/

/-- A transaction that did not begin changed nothing. -/
theorem begin_conn_of_not_ok {engine : Engine σ} {s : Session σ δ}
    (h : (s.begin engine).1 = false) : (s.begin engine).2.conn = s.conn := by
  unfold begin call Conn.begin at h ⊢
  simp only at h ⊢
  split at h
  · cases h
  · rfl

/-- A statement outside a transaction commits by itself. -/
theorem step_txn_none {engine : Engine σ} {change : δ → Option δ} {s : Session σ δ}
    (h : s.conn.txn = none) : (s.step engine change).2.conn.txn = none := by
  unfold step call Conn.exec
  simp only [h]
  split
  · rfl
  · exact h
  · split <;> first | exact h | rfl | simp_all

theorem query_txn_none {ρ : Type} {engine : Engine σ} {select : δ → Option ρ} {s : Session σ δ}
    (h : s.conn.txn = none) : (s.query engine select).2.conn.txn = none := by
  unfold query
  simp only
  split
  · exact h
  · rfl
  · exact h

/-! ## What is committed

The file changes when a statement succeeds outside a transaction, and when a commit succeeds. No
other call changes it. -/

/-- A statement that fails leaves the file as it was .. -/
theorem step_committed_of_not_ok {engine : Engine σ} {change : δ → Option δ} {s : Session σ δ}
    (h : (s.step engine change).1 = false) :
    (s.step engine change).2.conn.committed = s.conn.committed := by
  unfold step call Conn.exec at h ⊢
  simp only at h ⊢
  split at h
  · rfl
  · rfl
  · split at h
    · rfl
    · cases h
    · cases h

/-- .. and so does a commit that fails .. -/
theorem commit_committed_of_not_ok {engine : Engine σ} {s : Session σ δ}
    (h : (s.commit engine).1 = false) : (s.commit engine).2.conn.committed = s.conn.committed := by
  unfold commit call Conn.commit at h ⊢
  simp only at h ⊢
  split at h
  · cases h
  · rfl
  · rfl

/-- .. every rollback .. -/
theorem rollback_committed (engine : Engine σ) (s : Session σ δ) :
    (s.rollback engine).2.conn.committed = s.conn.committed := by
  unfold rollback call Conn.rollback
  simp only
  split <;> rfl

/-- .. and every query. -/
theorem query_committed {ρ : Type} (engine : Engine σ) (select : δ → Option ρ)
    (s : Session σ δ) : (s.query engine select).2.conn.committed = s.conn.committed := by
  unfold query
  simp only
  split <;> rfl

/-- Outside a transaction a query leaves the connection as it is, and a row that it delivers is a
committed one. -/
theorem query_outside {ρ : Type} (engine : Engine σ) (select : δ → Option ρ) {s : Session σ δ}
    (h : s.conn.txn = none) :
    (s.query engine select).2.conn = s.conn ∧
      ((s.query engine select).1 = none ∨
        (s.query engine select).1 = select s.conn.committed) := by
  unfold query
  simp only
  split
  · exact ⟨rfl, .inr (congrArg select (Conn.view_outside h))⟩
  · refine ⟨?_, .inl rfl⟩
    show { s.conn with txn := none } = s.conn
    rw [← h]
  · exact ⟨rfl, .inl rfl⟩

/-! ## The calls between two states

Operations are compared by the log: which calls one has made, which of them were refused, and
whether one of them left a transaction open. -/

/-- `s'` comes after `s`, and no call in between stranded a transaction. -/
def Quiet (s s' : Session σ δ) : Prop :=
  ∃ new, s'.log = s.log ++ new ∧ ∀ e ∈ new, ¬ e.strands

/-- `s'` comes after `s`, and it has no open transaction exactly if no call in between stranded
one. -/
def Settled (s s' : Session σ δ) : Prop :=
  ∃ new, s'.log = s.log ++ new ∧ (s'.conn.txn = none ↔ ∀ e ∈ new, ¬ e.strands)

/-- `s'` comes after `s`, and the engine refused a call in between. -/
def Refused (s s' : Session σ δ) : Prop :=
  ∃ new, s'.log = s.log ++ new ∧ ∃ e ∈ new, e.verdict ≠ .ok

theorem Quiet.refl (s : Session σ δ) : s.Quiet s :=
  ⟨[], (List.append_nil _).symm, List.forall_mem_nil _⟩

theorem Quiet.trans {s s' s'' : Session σ δ} (h : s.Quiet s') (h' : s'.Quiet s'') :
    s.Quiet s'' := by
  obtain ⟨new, hlog, hnew⟩ := h
  obtain ⟨new', hlog', hnew'⟩ := h'
  refine ⟨new ++ new', by rw [hlog', hlog, List.append_assoc], fun e he => ?_⟩
  rcases List.mem_append.mp he with he | he
  · exact hnew e he
  · exact hnew' e he

/-- Quiet calls that end outside a transaction are settled. -/
theorem Quiet.settled {s s' : Session σ δ} (h : s.Quiet s') (htxn : s'.conn.txn = none) :
    s.Settled s' := by
  obtain ⟨new, hlog, hnew⟩ := h
  exact ⟨new, hlog, iff_of_true htxn hnew⟩

theorem Quiet.trans_settled {s s' s'' : Session σ δ} (h : s.Quiet s') (h' : s'.Settled s'') :
    s.Settled s'' := by
  obtain ⟨new, hlog, hnew⟩ := h
  obtain ⟨new', hlog', hnew'⟩ := h'
  refine ⟨new ++ new', by rw [hlog', hlog, List.append_assoc], hnew'.trans ⟨fun h e he => ?_, ?_⟩⟩
  · rcases List.mem_append.mp he with he | he
    · exact hnew e he
    · exact h e he
  · exact fun h e he => h e (List.mem_append_right _ he)

theorem Refused.after {s s' s'' : Session σ δ} (h : s.log <+: s'.log) (h' : s'.Refused s'') :
    s.Refused s'' := by
  obtain ⟨before, hbefore⟩ := h
  obtain ⟨new, hlog, e, he, hverdict⟩ := h'
  refine ⟨before ++ new, by rw [hlog, ← hbefore, List.append_assoc], e, ?_, hverdict⟩
  exact List.mem_append_right _ he

theorem Refused.before {s s' s'' : Session σ δ} (h : s.Refused s') (h' : s'.log <+: s''.log) :
    s.Refused s'' := by
  obtain ⟨new, hlog, e, he, hverdict⟩ := h
  obtain ⟨later, hlater⟩ := h'
  refine ⟨new ++ later, by rw [← hlater, hlog, List.append_assoc], e, ?_, hverdict⟩
  exact List.mem_append_left _ he

theorem Refused.exists_mem_drop {s s' : Session σ δ} (h : s.Refused s') :
    ∃ e ∈ s'.log.drop s.log.length, e.verdict ≠ .ok := by
  obtain ⟨new, hlog, hnew⟩ := h
  rw [hlog, List.drop_left]
  exact hnew

/-- Where all calls since were answered with success, none was refused. -/
theorem not_refused_of_forall {s s' : Session σ δ}
    (h : ∀ e ∈ s'.log.drop s.log.length, e.verdict = .ok) : ¬ s.Refused s' := by
  intro hrefused
  obtain ⟨e, he, hverdict⟩ := hrefused.exists_mem_drop
  exact hverdict (h e he)

/-- The log only grows .. -/
theorem Quiet.isPrefix {s s' : Session σ δ} (h : s.Quiet s') : s.log <+: s'.log := by
  obtain ⟨new, hlog, _⟩ := h
  exact ⟨new, hlog.symm⟩

/-- .. in settled calls as well. -/
theorem Settled.isPrefix {s s' : Session σ δ} (h : s.Settled s') : s.log <+: s'.log := by
  obtain ⟨new, hlog, _⟩ := h
  exact ⟨new, hlog.symm⟩

/-- What is quiet as a whole is quiet in its parts. -/
theorem Quiet.split {s s' s'' : Session σ δ} (h : s.Quiet s'') (hfirst : s.log <+: s'.log)
    (hlater : s'.log <+: s''.log) : s.Quiet s' ∧ s'.Quiet s'' := by
  obtain ⟨new, hlog, hnew⟩ := h
  obtain ⟨first, hfirst⟩ := hfirst
  obtain ⟨later, hlater⟩ := hlater
  have hsplit : new = first ++ later := by
    rw [← hlater, ← hfirst, List.append_assoc] at hlog
    exact (List.append_cancel_left hlog).symm
  rw [hsplit, List.forall_mem_append] at hnew
  exact ⟨⟨first, hfirst.symm, hnew.1⟩, later, hlater.symm, hnew.2⟩

/-! Every call logs one entry. Only the two calls that end a transaction can strand one. -/

theorem quiet_of_log {s s' : Session σ δ} {op : Op} {inTxn : Bool} {v : Verdict}
    (hlog : s'.log = s.log ++ [⟨op, inTxn, v⟩]) (hop : ¬ (op = .commit ∨ op = .rollback)) :
    s.Quiet s' := by
  refine ⟨_, hlog, fun e he hstrands => hop ?_⟩
  rw [List.mem_singleton.mp he] at hstrands
  exact hstrands.1

/-- Preparing a statement is quiet .. -/
theorem quiet_prepare (engine : Engine σ) (s : Session σ δ) : s.Quiet (s.prepare engine).2 :=
  quiet_of_log rfl (by decide)

/-- .. beginning a transaction is quiet .. -/
theorem quiet_begin (engine : Engine σ) (s : Session σ δ) : s.Quiet (s.begin engine).2 :=
  quiet_of_log rfl (by decide)

/-- .. a statement is quiet .. -/
theorem quiet_step (engine : Engine σ) (change : δ → Option δ) (s : Session σ δ) :
    s.Quiet (s.step engine change).2 :=
  quiet_of_log rfl (by decide)

/-- (A query is one call, whether it finds a row or not.) -/
theorem query_log {ρ : Type} (engine : Engine σ) (select : δ → Option ρ) (s : Session σ δ) :
    (s.query engine select).2.log
      = s.log ++ [⟨.step, s.conn.txn.isSome, (engine.answer .step s.env).1⟩] := by
  unfold query
  simp only
  split <;> rfl

/-- .. and so is a query. -/
theorem quiet_query {ρ : Type} (engine : Engine σ) (select : δ → Option ρ) (s : Session σ δ) :
    s.Quiet (s.query engine select).2 :=
  quiet_of_log (query_log engine select s) (by decide)

/-- A call that ends a transaction unless the engine refuses it without discarding. -/
theorem settled_call {engine : Engine σ} {op : Op} (hop : op = .commit ∨ op = .rollback)
    {run : Verdict → Conn δ → Bool × Conn δ}
    (hrun : ∀ v c, (run v c).2.txn = none ↔ ¬ (c.txn.isSome = true ∧ v = .fail false))
    (s : Session σ δ) : s.Settled (s.call engine op run).2 := by
  refine ⟨[⟨op, s.conn.txn.isSome, (engine.answer op s.env).1⟩], rfl, (hrun _ _).trans ?_⟩
  unfold Entry.strands ask
  simp [hop]

/-- A commit ends the transaction, or its refusal is in the log. -/
theorem settled_commit (engine : Engine σ) (s : Session σ δ) : s.Settled (s.commit engine).2 := by
  refine settled_call (.inl rfl) (fun v c => ?_) s
  unfold Conn.commit
  rcases v with _ | (_ | _) <;> cases htxn : c.txn <;> simp [htxn]

theorem settled_rollback (engine : Engine σ) (s : Session σ δ) :
    s.Settled (s.rollback engine).2 := by
  refine settled_call (.inr rfl) (fun v c => ?_) s
  unfold Conn.rollback
  rcases v with _ | (_ | _) <;> cases htxn : c.txn <;> simp [htxn]

/-! A call that fails where it could succeed was refused. -/

theorem refused_of_log {s s' : Session σ δ} {e : Entry} (hlog : s'.log = s.log ++ [e])
    (hverdict : e.verdict ≠ .ok) : s.Refused s' :=
  ⟨[e], hlog, e, List.mem_singleton_self e, hverdict⟩

theorem prepare_refused {engine : Engine σ} {s : Session σ δ}
    (h : (s.prepare engine).1 = false) : s.Refused (s.prepare engine).2 :=
  refused_of_log rfl (of_decide_eq_false h)

/-- Outside a transaction, `BEGIN` only fails if it is refused. -/
theorem begin_refused {engine : Engine σ} {s : Session σ δ} (htxn : s.conn.txn = none)
    (h : (s.begin engine).1 = false) : s.Refused (s.begin engine).2 := by
  refine refused_of_log rfl fun hok => ?_
  have htrue : (s.begin engine).1 = (Conn.begin .ok s.conn).1 := by rw [← hok]; rfl
  unfold Conn.begin at htrue
  rw [htrue, htxn] at h
  cases h

/-- Inside a transaction, `COMMIT` only fails if it is refused. -/
theorem commit_refused {engine : Engine σ} {s : Session σ δ} {w : δ} (htxn : s.conn.txn = some w)
    (h : (s.commit engine).1 = false) : s.Refused (s.commit engine).2 := by
  refine refused_of_log rfl fun hok => ?_
  have htrue : (s.commit engine).1 = (Conn.commit .ok s.conn).1 := by rw [← hok]; rfl
  unfold Conn.commit at htrue
  rw [htrue, htxn] at h
  cases h

/-- A statement that could be carried out only fails if it is refused. -/
theorem step_refused {engine : Engine σ} {change : δ → Option δ} {s : Session σ δ}
    (hchange : change s.conn.view ≠ none) (h : (s.step engine change).1 = false) :
    s.Refused (s.step engine change).2 := by
  refine refused_of_log rfl fun hok => ?_
  have htrue : (s.step engine change).1 = (Conn.exec .ok change s.conn).1 := by rw [← hok]; rfl
  obtain ⟨w, hw⟩ := Option.ne_none_iff_exists'.mp hchange
  rw [htrue, Conn.exec, hw] at h
  cases htxn : s.conn.txn <;> simp [htxn] at h

/-! An engine that refuses nothing: a call fails only where it could not succeed. -/

/-- An engine that refuses nothing has not refused a call. -/
theorem not_refused_of_log {engine : Engine σ} (h : engine.NeverRefuses) {s s' : Session σ δ}
    {op : Op} {inTxn : Bool} {env : σ}
    (hlog : s'.log = s.log ++ [⟨op, inTxn, (engine.answer op env).1⟩]) : ¬ s.Refused s' := by
  rintro ⟨new, hnew, e, he, hverdict⟩
  rw [hlog] at hnew
  rw [← List.append_cancel_left hnew] at he
  rw [List.mem_singleton.mp he] at hverdict
  exact hverdict (h op env)

/-- With such an engine every statement is prepared .. -/
theorem prepare_of_neverRefuses {engine : Engine σ} (h : engine.NeverRefuses) (s : Session σ δ) :
    (s.prepare engine).1 = true := by
  by_contra hfailed
  exact not_refused_of_log h rfl (prepare_refused (Bool.not_eq_true _ ▸ hfailed))

/-- .. every transaction begins .. -/
theorem begin_of_neverRefuses {engine : Engine σ} (h : engine.NeverRefuses) {s : Session σ δ}
    (htxn : s.conn.txn = none) : (s.begin engine).1 = true := by
  by_contra hfailed
  exact not_refused_of_log h rfl (begin_refused htxn (Bool.not_eq_true _ ▸ hfailed))

/-- A statement that is granted and violates no constraint succeeds, inside a transaction and
outside. -/
theorem step_of_granted {engine : Engine σ} {s : Session σ δ} {change : δ → Option δ}
    (hok : (engine.answer .step s.env).1 = .ok) (hchange : change s.conn.view ≠ none) :
    (s.step engine change).1 = true := by
  obtain ⟨w, hw⟩ := Option.ne_none_iff_exists'.mp hchange
  unfold step call ask Conn.exec
  dsimp only
  rw [hok, hw]
  cases s.conn.txn <;> rfl

/-- .. every statement succeeds that can be carried out .. -/
theorem step_of_neverRefuses {engine : Engine σ} (h : engine.NeverRefuses) {s : Session σ δ}
    {change : δ → Option δ} (hchange : change s.conn.view ≠ none) :
    (s.step engine change).1 = true := step_of_granted (h .step s.env) hchange

/-- .. every transaction is committed .. -/
theorem commit_of_neverRefuses {engine : Engine σ} (h : engine.NeverRefuses) {s : Session σ δ}
    {w : δ} (htxn : s.conn.txn = some w) : (s.commit engine).1 = true := by
  by_contra hfailed
  exact not_refused_of_log h rfl (commit_refused htxn (Bool.not_eq_true _ ▸ hfailed))

/-- A query that was not refused delivers what it selects, and changes nothing. -/
theorem query_of_not_refused {ρ : Type} {engine : Engine σ} {select : δ → Option ρ}
    {s : Session σ δ} (h : ¬ s.Refused (s.query engine select).2) :
    (s.query engine select).1 = select s.conn.view ∧
      (s.query engine select).2.conn = s.conn := by
  have hok : (engine.answer .step s.env).1 = .ok := by
    by_contra hverdict
    exact h (refused_of_log (query_log engine select s) hverdict)
  unfold query ask
  simp only [hok]
  exact ⟨trivial, trivial⟩

/-- .. and a query returns what there is. -/
theorem query_of_neverRefuses {ρ : Type} {engine : Engine σ} (h : engine.NeverRefuses)
    (select : δ → Option ρ) (s : Session σ δ) :
    (s.query engine select).1 = select s.conn.view ∧
      (s.query engine select).2.conn = s.conn :=
  query_of_not_refused (not_refused_of_log h (query_log engine select s))

end Session

/-! ## Scripts

Outside a transaction each statement of a script is durable on its own. `runScript` is what the
data looks like when nothing but the statements themselves can fail. -/

/-- The statements in order, up to the first that cannot be carried out. -/
def runScript {δ : Type} : List (δ → Option δ) → δ → Bool × δ
  | [], d => (true, d)
  | change :: rest, d =>
    match change d with
    | none => (false, d)
    | some w => runScript rest w

/-- Two scripts in a row, where the second only runs after the first was complete. -/
theorem runScript_append {δ : Type} (first second : List (δ → Option δ)) (d : δ) :
    runScript (first ++ second) d =
      if (runScript first d).1 then runScript second (runScript first d).2
      else runScript first d := by
  induction first generalizing d with
  | nil => rfl
  | cons change rest ih =>
    rcases Option.eq_none_or_eq_some (change d) with hchange | ⟨w, hchange⟩
    · simp [runScript, hchange]
    · simp only [List.cons_append, runScript, hchange]
      exact ih w

/-- What every statement of a script keeps, the script keeps. -/
theorem runScript_keeps {δ : Type} {I : δ → Prop} (changes : List (δ → Option δ))
    (h : ∀ change ∈ changes, ∀ d w, I d → change d = some w → I w) {d : δ} (hd : I d) :
    I (runScript changes d).2 := by
  induction changes generalizing d with
  | nil => exact hd
  | cons change rest ih =>
    obtain ⟨hchange, hrest⟩ := List.forall_mem_cons.mp h
    unfold runScript
    cases hw : change d with
    | none => exact hd
    | some w => exact ih hrest (hchange d w hd hw)

/-- A process that is cut off: it can make so many more steps, and then nothing succeeds. -/
def cutEngine : Engine Nat where
  answer
    | _, 0 => (.fail false, 0)
    | .step, left + 1 => (.ok, left)
    | _, left + 1 => (.ok, left + 1)

namespace Session

variable {σ δ : Type}

/-- A statement outside a transaction that the engine does not refuse. -/
theorem step_outside {engine : Engine σ} {s : Session σ δ} (htxn : s.conn.txn = none)
    (hok : (engine.answer .step s.env).1 = .ok) (change : δ → Option δ) :
    s.step engine change =
      ((change s.conn.committed).isSome,
        { conn := { committed := (change s.conn.committed).getD s.conn.committed }
          env := (engine.answer .step s.env).2
          log := s.log ++ [⟨.step, false, .ok⟩] }) := by
  obtain ⟨⟨committed, txn⟩, env, log⟩ := s
  dsimp only at htxn hok
  subst htxn
  unfold step call ask Conn.exec Conn.view
  dsimp only [Option.getD_none]
  rw [hok]
  cases change committed <;> rfl

/-- A statement that the engine refuses, outside a transaction. -/
theorem step_failed {engine : Engine σ} {s : Session σ δ}
    (hfail : (engine.answer .step s.env).1 = .fail false) (change : δ → Option δ) :
    (s.step engine change).1 = false ∧ (s.step engine change).2.conn = s.conn := by
  unfold step call ask Conn.exec
  dsimp only
  rw [hfail]
  exact ⟨rfl, rfl⟩

theorem script_append (engine : Engine σ) (first second : List (δ → Option δ))
    (s : Session σ δ) :
    s.script engine (first ++ second) =
      if (s.script engine first).1 then (s.script engine first).2.script engine second
      else s.script engine first := by
  induction first generalizing s with
  | nil => rfl
  | cons change rest ih =>
    simp only [List.cons_append, script]
    by_cases hstep : (s.step engine change).1 = true
    · simp only [if_pos hstep]
      exact ih _
    · simp only [if_neg hstep]

/-- A statement that succeeded was granted. -/
theorem granted_of_step {engine : Engine σ} {change : δ → Option δ} {s : Session σ δ}
    (h : (s.step engine change).1 = true) : (engine.answer .step s.env).1 = .ok := by
  unfold step call ask Conn.exec at h
  dsimp only at h
  split at h
  · cases h
  · cases h
  · assumption

/-- A script that ran to its end had each of its statements granted .. -/
theorem grants_of_script {engine : Engine σ} (changes : List (δ → Option δ)) {s : Session σ δ}
    (h : (s.script engine changes).1 = true) :
    engine.Grants (List.replicate changes.length .step) s.env := by
  induction changes generalizing s with
  | nil => exact trivial
  | cons change rest ih =>
    unfold script at h
    by_cases hstep : (s.step engine change).1 = true
    · rw [if_pos hstep] at h
      exact ⟨granted_of_step hstep, ih h⟩
    · rw [if_neg hstep] at h
      exact absurd h hstep

/-- .. and a script whose statements are granted does to the committed data what the statements do
one after the other. -/
theorem script_of_grants {engine : Engine σ} (changes : List (δ → Option δ)) {s : Session σ δ}
    (htxn : s.conn.txn = none)
    (h : engine.Grants (List.replicate changes.length .step) s.env) :
    (s.script engine changes).1 = (runScript changes s.conn.committed).1 ∧
      (s.script engine changes).2.conn =
        { committed := (runScript changes s.conn.committed).2 } ∧
      ((runScript changes s.conn.committed).1 = true →
        (s.script engine changes).2.env =
          engine.after (List.replicate changes.length .step) s.env) := by
  -- each granted statement behaves as in runScript, and leaves the engine one answer further
  induction changes generalizing s with
  | nil =>
    obtain ⟨⟨committed, txn⟩, env, log⟩ := s
    cases htxn
    exact ⟨rfl, rfl, fun _ => rfl⟩
  | cons change rest ih =>
    obtain ⟨hfirst, hrest⟩ := h
    unfold script runScript
    rw [step_outside htxn hfirst]
    cases change s.conn.committed with
    | none => exact ⟨rfl, rfl, fun hdone => by cases hdone⟩
    | some w => exact ih rfl hrest

/-- **A script outside a transaction** succeeds exactly where the engine grants its statements and
each of them can be carried out. -/
theorem script_iff {engine : Engine σ} (changes : List (δ → Option δ)) {s : Session σ δ}
    (htxn : s.conn.txn = none) :
    (s.script engine changes).1 = true ↔
      engine.Grants (List.replicate changes.length .step) s.env ∧
        (runScript changes s.conn.committed).1 = true := by
  constructor
  · intro h
    have hgrants := grants_of_script changes h
    exact ⟨hgrants, (script_of_grants changes htxn hgrants).1.symm.trans h⟩
  · rintro ⟨hgrants, hdone⟩
    exact (script_of_grants changes htxn hgrants).1.trans hdone

/-- With an engine that refuses nothing, a script does what its statements do. -/
theorem script_of_neverRefuses {engine : Engine σ} (h : engine.NeverRefuses)
    (changes : List (δ → Option δ)) {s : Session σ δ} (htxn : s.conn.txn = none) :
    (s.script engine changes).1 = (runScript changes s.conn.committed).1 ∧
      (s.script engine changes).2.conn =
        { committed := (runScript changes s.conn.committed).2 } := by
  obtain ⟨hdone, hconn, -⟩ := script_of_grants changes htxn (h.grants _ _)
  exact ⟨hdone, hconn⟩

/-- Statements that change nothing in data of this kind leave it as it is, whatever is refused. -/
theorem script_fixed (engine : Engine σ) (changes : List (δ → Option δ)) {s : Session σ δ} {d : δ}
    (hconn : s.conn = { committed := d }) (h : ∀ change ∈ changes, change d = some d) :
    (s.script engine changes).2.conn = { committed := d } := by
  induction changes generalizing s with
  | nil => exact hconn
  | cons change rest ih =>
    obtain ⟨hfirst, hrest⟩ := List.forall_mem_cons.mp h
    have hstep : (s.step engine change).2.conn = { committed := d } := by
      unfold step call Conn.exec
      dsimp only
      rw [hconn]
      -- refused or done, the data is d: a change that is done maps d to d
      split
      · rfl
      · rfl
      · rw [Conn.view_outside rfl, hfirst]
    unfold script
    by_cases hdone : (s.step engine change).1 = true
    · rw [if_pos hdone]
      exact ih hstep hrest
    · rw [if_neg hdone]
      exact hstep

theorem prepare_cut {s : Session Nat δ} {left : Nat} (h : s.env = left + 1) :
    s.prepare cutEngine =
      (true, { s with log := s.log ++ [⟨.prepare, s.conn.txn.isSome, .ok⟩] }) := by
  obtain ⟨conn, env, log⟩ := s
  cases h
  rfl

/-- A script that may be cut off: the statements up to the cut are durable. -/
theorem script_cut (changes : List (δ → Option δ)) {s : Session Nat δ} (htxn : s.conn.txn = none) :
    (s.script cutEngine changes).1 =
        ((runScript (changes.take s.env) s.conn.committed).1 && decide (changes.length ≤ s.env)) ∧
      (s.script cutEngine changes).2.conn =
        { committed := (runScript (changes.take s.env) s.conn.committed).2 } ∧
      ((s.script cutEngine changes).1 = true →
        (s.script cutEngine changes).2.env = s.env - changes.length) := by
  induction changes generalizing s with
  | nil =>
    obtain ⟨⟨committed, txn⟩, env, log⟩ := s
    cases htxn
    exact ⟨by simp [script, runScript], by simp [script, runScript], fun _ => rfl⟩
  | cons change rest ih =>
    obtain ⟨⟨committed, txn⟩, env, log⟩ := s
    cases htxn
    -- the budget is used up, or one answer of it is
    cases env with
    | zero =>
      have hrefused : (cutEngine.answer .step 0).1 = .fail false := rfl
      obtain ⟨hstep, hconn⟩ := step_failed (s := ⟨⟨committed, none⟩, 0, log⟩) hrefused change
      unfold script
      dsimp only
      rw [hstep, if_neg (by decide)]
      refine ⟨?_, hconn, fun htrue => ?_⟩
      · rw [hstep]
        simp
      · rw [hstep] at htrue
        cases htrue
    | succ left =>
      unfold script
      rw [step_outside rfl rfl]
      dsimp only
      rw [List.take_succ_cons]
      unfold runScript
      cases change committed with
      | none =>
        refine ⟨by simp, rfl, fun htrue => by cases htrue⟩
      | some w =>
        obtain ⟨hdone, hconn, hleft⟩ :=
          ih (s := ⟨⟨w, none⟩, left, log ++ [⟨.step, false, .ok⟩]⟩) rfl
        refine ⟨?_, hconn, fun htrue => ?_⟩
        · simp only [List.length_cons, Nat.add_le_add_iff_right]
          exact hdone
        · rw [List.length_cons, Nat.add_sub_add_right]
          exact hleft htrue

end Session

/-! ## Properties of the data

A property that holds of the file and of what a transaction sees is kept by every call that moves
data from one to the other, and by every statement that keeps it. -/

namespace Conn

variable {δ : Type} {I : δ → Prop} {c : Conn δ}

/-- `I` holds of what is committed and of the working copy. -/
def All (I : δ → Prop) (c : Conn δ) : Prop := I c.committed ∧ ∀ w, c.txn = some w → I w

theorem All.view (h : c.All I) : I c.view := by
  unfold Conn.view
  cases htxn : c.txn with
  | none => exact h.1
  | some w => exact h.2 w htxn

theorem All.discard (h : c.All I) : Conn.All I { c with txn := none } :=
  ⟨h.1, fun _ hw => nomatch hw⟩

theorem All.begin (h : c.All I) (v : Verdict) : (c.begin v).2.All I := by
  unfold Conn.begin
  split
  · exact ⟨h.1, fun w hw => Option.some.inj hw ▸ h.1⟩
  · exact h

theorem All.commit (h : c.All I) (v : Verdict) : (c.commit v).2.All I := by
  unfold Conn.commit
  split
  · rename_i w htxn; exact ⟨h.2 w htxn, fun _ hw => nomatch hw⟩
  · exact h.discard
  · exact h

theorem All.rollback (h : c.All I) (v : Verdict) : (c.rollback v).2.All I := by
  unfold Conn.rollback
  split
  · exact h.discard
  · exact h.discard
  · exact h

theorem All.exec (h : c.All I) (v : Verdict) {change : δ → Option δ}
    (hchange : ∀ d w, I d → change d = some w → I w) : (c.exec v change).2.All I := by
  unfold Conn.exec
  split
  · exact h.discard
  · exact h
  · split
    · exact h
    · rename_i w _ hw _
      exact ⟨h.1, fun w' hw' => Option.some.inj hw' ▸ hchange _ w h.view hw⟩
    · rename_i w hw htxn
      exact ⟨hchange _ w h.view hw, h.2⟩

/-- A statement that failed changed nothing, but for the open transaction that it may have
discarded. -/
theorem All.step_of_not_ok {σ : Type} {engine : Engine σ} {change : δ → Option δ}
    {s : Session σ δ} (h : s.conn.All I) (hfailed : (s.step engine change).1 = false) :
    (s.step engine change).2.conn.All I := by
  unfold Session.step Session.call Conn.exec at hfailed ⊢
  dsimp only at hfailed ⊢
  split at hfailed
  · exact h.discard
  · exact h
  · split at hfailed
    · exact h
    · cases hfailed
    · cases hfailed

/-- One that succeeded made its change to the copy that the connection works on. -/
theorem All.step_of_ok {σ : Type} {engine : Engine σ} {change : δ → Option δ} {s : Session σ δ}
    {J : δ → Prop} (h : s.conn.All I) (hkept : ∀ d, I d → J d)
    (hchange : ∀ d w, I d → change d = some w → J w) (hok : (s.step engine change).1 = true) :
    (s.step engine change).2.conn.All J := by
  obtain ⟨w, hw, -, ⟨-, hconn⟩ | ⟨-, hconn⟩⟩ := Session.step_ok hok
  · rw [hconn]
    exact ⟨hchange _ w h.view hw, nofun⟩
  · rw [hconn]
    exact ⟨hkept _ h.1, fun w' hw' => Option.some.inj hw' ▸ hchange _ w h.view hw⟩

/-- A text keeps what each of its statements keeps, up to the one that fails. -/
theorem All.script {σ : Type} {engine : Engine σ} (changes : List (δ → Option δ))
    (hchange : ∀ change ∈ changes, ∀ d w, I d → change d = some w → I w) {s : Session σ δ}
    (h : s.conn.All I) : (s.script engine changes).2.conn.All I := by
  induction changes generalizing s with
  | nil => exact h
  | cons change rest ih =>
    obtain ⟨hfirst, hrest⟩ := List.forall_mem_cons.mp hchange
    have hstep : (s.step engine change).2.conn.All I := h.exec _ hfirst
    unfold Session.script
    dsimp only
    split_ifs
    · exact ih hrest hstep
    · exact hstep

end Conn

/-! ## What a transaction adds

An open transaction has been built up from what is committed, statement by statement. -/

namespace Conn

variable {δ : Type} {R : δ → δ → Prop}

/-- The connection sees something that is `R`-above what is committed. -/
def Ahead (R : δ → δ → Prop) (c : Conn δ) : Prop := R c.committed c.view

/-- Outside a transaction there is nothing to compare. -/
theorem ahead_outside (hrefl : ∀ d, R d d) {c : Conn δ} (h : c.txn = none) : c.Ahead R := by
  unfold Ahead
  rw [view_outside h]
  exact hrefl _

section

variable (hrefl : ∀ d, R d d) {c : Conn δ} (h : c.Ahead R)

include hrefl

theorem ahead_discard : Conn.Ahead R { c with txn := none } := ahead_outside hrefl rfl

include h

theorem Ahead.begin (v : Verdict) : (c.begin v).2.Ahead R := by
  unfold Conn.begin
  split
  · exact hrefl _
  · exact h

/-- A commit that fails may leave the transaction as it is. -/
theorem Ahead.commit (v : Verdict) : (c.commit v).2.Ahead R := by
  unfold Conn.commit
  split
  · exact hrefl _
  · exact ahead_discard hrefl
  · exact h

theorem Ahead.rollback (v : Verdict) : (c.rollback v).2.Ahead R := by
  unfold Conn.rollback
  split
  · exact ahead_discard hrefl
  · exact ahead_discard hrefl
  · exact h

theorem Ahead.exec (v : Verdict) {change : δ → Option δ}
    (hchange : ∀ b d w, R b d → change d = some w → R b w) : (c.exec v change).2.Ahead R := by
  unfold Conn.exec
  split
  · exact ahead_discard hrefl
  · exact h
  · split
    · exact h
    · rename_i hw _
      exact hchange _ _ _ h hw
    · rename_i htxn
      exact ahead_outside hrefl htxn

end

end Conn

/-- A query may discard an open transaction, but it changes nothing else. -/
theorem Session.query_conn {σ δ ρ : Type} (engine : Engine σ) (select : δ → Option ρ)
    (s : Session σ δ) : (s.query engine select).2.conn = s.conn ∨
      (s.query engine select).2.conn = { s.conn with txn := none } := by
  unfold Session.query
  dsimp only
  split
  · exact .inl rfl
  · exact .inr rfl
  · exact .inl rfl

end Txn
