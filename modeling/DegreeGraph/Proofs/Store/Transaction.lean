import DegreeGraph.Proofs.Store.Reached

/-!
# Transactions

A transaction is all or nothing. If a failure goes on from a step of its body, the contents of the
store are what they were before it, and the failure is the same outside. Otherwise what it leaves is
what its body leaves without any transaction around it (`Step.transaction_atomic`).

Inside a body two kinds of steps are told apart. Those that would open a transaction are refused and
change nothing (`Store.Refuses`), so they may as well be left out. They are refused because they are
nested once they come to open it; an action may fail before that (`Action.beforeOpening`), and then
it says why. All other steps do the same inside a transaction and outside (`StoreM.IgnoresOpening`).
-/

namespace DegreeGraph

variable {α β : Type} {s t : Store} {body : List Step} {step : Step} {fault : Fault}

/-! ## Steps that open a transaction -/

/-- The action opens a transaction of its own. -/
def Action.opensTransaction : Action → Bool
  | .materialize .. => true
  | .generate .. => true
  | _ => false

/-- The step opens a transaction. -/
def Step.opensTransaction : Step → Bool
  | .act action _ => action.opensTransaction
  | .transaction .. => true

/-- What an action looks at before it opens its transaction: the settings, then the edges that are to
be written. For a degree sequence these come from a whole sampling. -/
def Action.beforeOpening : Action → Except Fault Unit
  | .materialize edges given _ => do
    let _ ← Config.ofFields given
    let _ ← sortedEnds edges
  | .generate sequence given registry draws => do
    let config ← Config.ofFields given
    let _ ← draws.check
    let degrees ← partsOf sequence
    let r ← (realize registry config draws (.list degrees)).answer
    let _ ← sortedEnds r.edgeData
  | _ => .ok ()

/-- What an action fails with that would open a transaction inside another: that it is nested, unless
it fails before it comes to that. -/
def Action.refusal (action : Action) : Fault :=
  match action.beforeOpening with
  | .ok _ => .nestedTransaction
  | .error fault => fault

/-- A step opens a transaction once it has looked at something. If that fails, so does the step, in
the same way on every store. If not, the step is refused inside another transaction. -/
structure StoreM.OpensAfter (before : Except Fault Unit) (x : StoreM α) : Prop where
  fails : ∀ fault, before = .error fault → ∀ u : Store, x.run u = (.error fault, u)
  refused : before = .ok () → ∀ t : Store, t.inTransaction = true →
    x.run t = (.error .nestedTransaction, t)

namespace StoreM.OpensAfter

variable {before : Except Fault Unit}

theorem transaction (body : StoreM α) : OpensAfter (.ok ()) (Store.transaction body) where
  fails fault hbefore := by cases hbefore
  refused _ t ht := by rw [Store.transaction_run, if_pos ht]

theorem bind {x : StoreM α} (hx : x.OpensAfter before) (f : α → StoreM β) :
    (x >>= f).OpensAfter before where
  fails fault hbefore u := by rw [Stepwise.run_bind, hx.fails fault hbefore u]
  refused hbefore t ht := by rw [Stepwise.run_bind, hx.refused hbefore t ht]

/-- What comes before the store is looked at does not depend on the store. -/
theorem lift_bind (answer : Except Fault α) {f : α → StoreM β} {later : α → Except Fault Unit}
    (hf : ∀ a, (f a).OpensAfter (later a)) :
    (Store.lift answer >>= f).OpensAfter (answer >>= later) := by
  cases answer with
  | error fault =>
    have hrun (u : Store) : (Store.lift (.error fault) >>= f).run u = (.error fault, u) := by
      rw [Stepwise.run_bind, StoreM.run_lift]
    constructor
    · intro cause hbefore u
      cases hbefore
      exact hrun u
    · intro hbefore
      cases hbefore
  | ok a =>
    have hrun (u : Store) : (Store.lift (.ok a) >>= f).run u = (f a).run u := by
      rw [Stepwise.run_bind, StoreM.run_lift]
    exact ⟨fun fault hbefore u ↦ (hrun u).trans ((hf a).fails fault hbefore u),
      fun hbefore t ht ↦ (hrun t).trans ((hf a).refused hbefore t ht)⟩

end StoreM.OpensAfter

theorem Store.opensAfter_materialize (layout : Layout) (edges count : Datum) :
    (materialize layout edges count).OpensAfter (do let _ ← sortedEnds edges) :=
  .lift_bind _ fun _ ↦ (StoreM.OpensAfter.transaction _).bind _

/-- **An action that opens a transaction looks at what comes before it first.** -/
theorem Action.opensAfter_perform {action : Action} (haction : action.opensTransaction = true) :
    action.perform.OpensAfter action.beforeOpening := by
  cases action with
  | materialize edges given count =>
    exact .lift_bind _ fun _ ↦ (Store.opensAfter_materialize _ _ _).bind _
  | generate sequence given registry draws =>
    refine .lift_bind _ fun config ↦ .bind ?_ _
    exact .lift_bind _ fun _ ↦ .lift_bind _ fun _ ↦ .lift_bind _ fun _ ↦
      (Store.opensAfter_materialize _ _ _).bind _
  | _ => cases haction

/-- Every step that opens a transaction is refused in the store, which stays as it is. It is refused
because it is nested, unless it is an action that fails before it opens anything; and then it would
fail in the same way on every store. -/
structure Store.Refuses (t : Store) : Prop where
  transaction : ∀ (body : List Step) (caught : Bool), (Step.transaction body caught).run t
    = ⟨passedOn caught (some .nestedTransaction), t,
      [.begun, .closed (.error .nestedTransaction) t.contents]⟩
  action : ∀ action : Action, action.opensTransaction = true → ∀ caught : Bool,
    (Step.act action caught).run t
      = ⟨passedOn caught (some action.refusal), t, [.acted action (.error action.refusal) t.contents]⟩
  early : ∀ action : Action, action.opensTransaction = true → ∀ fault,
    action.beforeOpening = .error fault → ∀ u : Store, action.perform.run u = (.error fault, u)

theorem Store.refuses_of_inTransaction (ht : t.inTransaction = true) : t.Refuses where
  transaction body caught := by rw [Step.run, if_pos ht]
  action action haction caught := by
    have hopens := Action.opensAfter_perform haction
    have hrun : action.perform.run t = (.error action.refusal, t) := by
      rw [Action.refusal]
      cases hbefore : action.beforeOpening with
      | ok => exact hopens.refused hbefore t ht
      | error fault => exact hopens.fails fault hbefore t
    rw [Step.run, hrun]
    rfl
  early action haction := (Action.opensAfter_perform haction).fails

theorem Store.Refuses.store_run (ht : t.Refuses) (hstep : step.opensTransaction = true) :
    (step.run t).store = t := by
  cases step with
  | act action caught =>
    rw [ht.action action hstep caught]
  | transaction body caught => rw [ht.transaction body caught]

/-! ## All other steps -/

/-- The step does the same inside a transaction and outside. -/
def StoreM.IgnoresOpening (x : StoreM α) : Prop :=
  ∀ s : Store, x.run s.opened = ((x.run s).1, (x.run s).2.opened)

theorem StoreM.IgnoresOpening.bind_pure {x : StoreM α} (hx : x.IgnoresOpening) (f : α → β) :
    (x >>= fun a ↦ pure (f a)).IgnoresOpening := by
  intro s
  rw [Stepwise.run_bind, Stepwise.run_bind, hx s]
  rcases x.run s with ⟨_ | a, t⟩
  · rfl
  · rfl

namespace Store

theorem ignoresOpening_find (label key property : Datum) :
    (find label key property).IgnoresOpening := by
  intro s
  rw [find_run, find_run]
  rfl

theorem ignoresOpening_findOrCreate (label key property : Datum) :
    (findOrCreate label key property).IgnoresOpening := by
  intro s
  have hname : s.opened.nameOf label key property = s.nameOf label key property := rfl
  have hcontents : s.opened.contents = s.contents := rfl
  simp only [findOrCreate_run, hname, hcontents]
  cases (s.nameOf label key property).nodeKey with
  | error fault => rfl
  | ok k =>
    simp only
    cases s.contents.find? k with
    | some h => rfl
    | none =>
      cases propertyName (s.nameOf label key property).property with
      | error fault => rfl
      | ok held => rfl

theorem ignoresOpening_createEdge (a b type : Datum) : (createEdge a b type).IgnoresOpening := by
  intro s
  have hgone : s.opened.attempted.isGone = s.attempted.isGone := rfl
  have hhandle (d : Datum) : s.opened.handle? d = s.handle? d := rfl
  rw [createEdge_run, createEdge_run, hgone, hhandle, hhandle]
  by_cases h : s.attempted.isGone
  · rw [if_pos h, if_pos h]
    rfl
  · rw [if_neg h, if_neg h]
    cases s.handle? a with
    | none => rfl
    | some h =>
      cases s.handle? b with
      | none => rfl
      | some k => rfl

end Store

theorem Action.ignoresOpening_perform {action : Action}
    (haction : action.opensTransaction = false) : action.perform.IgnoresOpening := by
  cases action with
  | findOrCreate label key property =>
    exact (Store.ignoresOpening_findOrCreate label key property).bind_pure _
  | find label key property => exact (Store.ignoresOpening_find label key property).bind_pure _
  | createEdge a b type => exact (Store.ignoresOpening_createEdge a b type).bind_pure _
  | counts => exact fun _ ↦ rfl
  | view => exact fun _ ↦ rfl
  | setLimit limit => exact fun _ ↦ rfl
  | fail fault => exact fun _ ↦ rfl
  | materialize => cases haction
  | generate => cases haction

theorem Step.run_opened (hstep : step.opensTransaction = false) (s : Store) :
    (step.run s.opened).fault = (step.run s).fault
      ∧ (step.run s.opened).store = (step.run s).store.opened := by
  cases step with
  | act action caught =>
    rw [Step.run, Step.run, Action.ignoresOpening_perform hstep s]
    exact ⟨rfl, rfl⟩
  | transaction => cases hstep

/-! ## Bodies -/

theorem runBody_cons_of_some (rest : List Step) (h : (step.run s).fault = some fault) :
    runBody (step :: rest) s = step.run s := by
  simp only [runBody, h]

theorem runBody_cons_of_none (rest : List Step) (h : (step.run s).fault = none) :
    (runBody (step :: rest) s).fault = (runBody rest (step.run s).store).fault
      ∧ (runBody (step :: rest) s).store = (runBody rest (step.run s).store).store := by
  simp only [runBody, h, and_self]

/-- The failure of a body is that of one of its steps, and those before it have gone well. -/
theorem exists_step_of_fault (h : (runBody body s).fault = some fault) :
    ∃ before step after, body = before ++ step :: after ∧ (runBody before s).fault = none
      ∧ (step.run (runBody before s).store).fault = some fault := by
  induction body generalizing s with
  | nil => cases h
  | cons first rest ih =>
    cases hfirst : (first.run s).fault with
    | some fault' =>
      rw [runBody_cons_of_some rest hfirst] at h
      exact ⟨[], first, rest, rfl, rfl, h⟩
    | none =>
      rw [(runBody_cons_of_none rest hfirst).1] at h
      obtain ⟨before, step, after, rfl, hbefore, hstep⟩ := ih h
      refine ⟨first :: before, step, after, rfl, ?_⟩
      rw [(runBody_cons_of_none before hfirst).1, (runBody_cons_of_none before hfirst).2]
      exact ⟨hbefore, hstep⟩

/-- The steps that open no transaction. -/
def plainSteps (body : List Step) : List Step := body.filter fun step ↦ !step.opensTransaction

/-- A body that goes well inside a transaction does what its plain steps do outside. -/
theorem runBody_opened (h : (runBody body s.opened).fault = none) :
    (runBody (plainSteps body) s).fault = none
      ∧ (runBody body s.opened).store = (runBody (plainSteps body) s).store.opened := by
  induction body generalizing s with
  | nil => exact ⟨rfl, rfl⟩
  | cons step rest ih =>
    cases hfault : (step.run s.opened).fault with
    | some fault =>
      rw [runBody_cons_of_some rest hfault, hfault] at h
      cases h
    | none =>
      obtain ⟨hrest, hstore⟩ := runBody_cons_of_none rest hfault
      rw [hrest] at h
      rw [hstore]
      cases hopens : step.opensTransaction with
      | true =>
        -- The step has been refused and caught; without it the store is the same.
        have hplain : plainSteps (step :: rest) = plainSteps rest := by
          simp [plainSteps, hopens]
        rw [(Store.refuses_of_inTransaction rfl).store_run hopens] at h ⊢
        rw [hplain]
        exact ih h
      | false =>
        -- The step does inside what it does outside, and the rest goes on from there.
        have hplain : plainSteps (step :: rest) = step :: plainSteps rest := by
          simp [plainSteps, hopens]
        obtain ⟨hfaults, hstores⟩ := Step.run_opened hopens s
        rw [hstores] at h ⊢
        obtain ⟨hrest', hstore'⟩ := runBody_cons_of_none (plainSteps rest)
          (hfaults.symm.trans hfault)
        rw [hplain, hrest', hstore']
        exact ih h

/-! ## A whole transaction -/

theorem Store.committed_opened (hs : s.inTransaction = false) : s.opened.committed = s := by
  cases s
  cases hs
  rfl

theorem Step.run_transaction_of_some (caught : Bool) (hs : s.inTransaction = false)
    (h : (runBody body s.opened).fault = some fault) :
    ((Step.transaction body caught).run s).fault = passedOn caught (some fault)
      ∧ ((Step.transaction body caught).run s).store
        = (runBody body s.opened).store.rolledBack s.contents := by
  simp only [Step.run, hs, h]
  exact ⟨rfl, rfl⟩

theorem Step.run_transaction_of_none (caught : Bool) (hs : s.inTransaction = false)
    (h : (runBody body s.opened).fault = none) :
    ((Step.transaction body caught).run s).fault = none
      ∧ ((Step.transaction body caught).run s).store = (runBody body s.opened).store.committed := by
  simp only [Step.run, hs, h]
  exact ⟨by cases caught <;> rfl, rfl⟩

/-- The steps of a body as one step. -/
def stepOfBody (body : List Step) : StoreM Unit := fun s ↦
  let inner := runBody body s
  match inner.fault with
  | none => (.ok (), inner.store)
  | some fault => (.error fault, inner.store)

/-- The transactions of scripts are those that writers of graphs use. -/
theorem Step.run_transaction (body : List Step) (caught : Bool) (s : Store) :
    let answer := (Store.transaction (stepOfBody body)).run s
    ((Step.transaction body caught).run s).fault = passedOn caught (faultOf answer.1)
      ∧ ((Step.transaction body caught).run s).store = answer.2 := by
  have hrun : (stepOfBody body).run s.opened = stepOfBody body s.opened := rfl
  simp only [Store.transaction_run, hrun, stepOfBody]
  cases hs : s.inTransaction with
  | true =>
    rw [Step.run, if_pos hs]
    exact ⟨rfl, rfl⟩
  | false =>
    cases hfault : (runBody body s.opened).fault with
    | none =>
      obtain ⟨hnone, hstore⟩ := run_transaction_of_none caught hs hfault
      exact ⟨hnone.trans (by cases caught <;> rfl), hstore⟩
    | some fault => exact run_transaction_of_some caught hs hfault

/-- **Transactions are atomic.** Whatever a body does, the store is out of the transaction after it.
If a failure goes on from one of its steps, that failure is the one outside, and the contents are
those from before. If none does, the body has the effect of its plain steps. Wherever the body
stands, the transaction is open, and a step that would open another one is refused: for being
nested, unless it fails before it comes to open it. -/
theorem Step.transaction_atomic (hs : s.inTransaction = false) (body : List Step) (caught : Bool) :
    let inner := runBody body s.opened
    let outer := (Step.transaction body caught).run s
    outer.store.inTransaction = false
      ∧ (∀ fault, inner.fault = some fault → outer.fault = passedOn caught (some fault)
        ∧ outer.store.contents = s.contents ∧ outer.store.keyProperty = s.keyProperty
        ∧ ∃ before step after, body = before ++ step :: after
          ∧ (runBody before s.opened).fault = none
          ∧ (step.run (runBody before s.opened).store).fault = some fault)
      ∧ (inner.fault = none → outer.fault = none ∧ (runBody (plainSteps body) s).fault = none
        ∧ outer.store = (runBody (plainSteps body) s).store)
      ∧ ∀ before : List Step, (runBody before s.opened).store.inTransaction = true
        ∧ (runBody before s.opened).store.Refuses := by
  intro inner outer
  have hfollows : s.Follows outer.store := Step.follows_run _ s
  refine ⟨hfollows.inTransaction_eq.trans hs, ?_, ?_, ?_⟩
  · intro fault hfault
    obtain ⟨houter, hstore⟩ := Step.run_transaction_of_some caught hs hfault
    refine ⟨houter, ?_, hfollows.keyProperty_eq, exists_step_of_fault hfault⟩
    exact (congrArg Store.contents hstore).trans rfl
  · intro hfault
    obtain ⟨houter, hstore⟩ := Step.run_transaction_of_none caught hs hfault
    obtain ⟨hplain, hopened⟩ := runBody_opened hfault
    refine ⟨houter, hplain, hstore.trans ?_⟩
    -- Outside, the plain steps have left the store without a transaction.
    have hclosed := (follows_runBody (plainSteps body) s).inTransaction_eq.trans hs
    rw [hopened]
    exact Store.committed_opened hclosed
  · intro before
    have hopen := (follows_runBody before s.opened).inTransaction_eq
    exact ⟨hopen, Store.refuses_of_inTransaction hopen⟩

/-- A graph with given degrees is to be found and written. -/
def Action.ofDegrees (degrees : List ℤ) : Action :=
  .generate (sequenceDatum degrees) [] .builtIn (.script [0])

/-- A body that makes a node, catches the refusal of another transaction, and then fails. -/
def Step.refusedBody : List Step :=
  [.act (.findOrCreate (.text "Person") (.text "Ann") .null) false, .transaction [] true,
    .act (.fail .storeGone) false]

/-- Before the body fails, an edge could not have been written either. -/
theorem Step.transaction_atomic_after_refusal :
    let outer := (Step.transaction refusedBody false).run {}
    let t := (runBody (refusedBody.take 2) ({} : Store).opened).store
    (Step.act (.ofDegrees [1, 1]) true).run t
        = ⟨none, t, [.acted (.ofDegrees [1, 1]) (.error .nestedTransaction) t.contents]⟩
      ∧ (runBody refusedBody ({} : Store).opened).store.contents.nodes.length = 1
      ∧ (runBody refusedBody ({} : Store).opened).fault = some .storeGone
      ∧ outer.fault = some .storeGone ∧ outer.store.contents = {} := by
  have hrefusal : (Action.ofDegrees [1, 1]).refusal = .nestedTransaction := by cbv
  obtain ⟨-, hrolledBack, -, hopen⟩ := Step.transaction_atomic (s := {}) rfl refusedBody false
  obtain ⟨hfault, hcontents, -⟩ := hrolledBack .storeGone rfl
  have hrefused := (hopen (refusedBody.take 2)).2.action (.ofDegrees [1, 1]) rfl true
  rw [hrefusal] at hrefused
  exact ⟨hrefused, rfl, rfl, hfault, hcontents⟩

/-- **A graph that is to be written inside a transaction may be refused for what it is.** No graph has
one node of degree one, and this is found before a transaction is opened. -/
theorem Step.nested_generate_not_graphical :
    ({} : Store).opened.inTransaction = true
      ∧ (Step.act (.ofDegrees [1]) true).run ({} : Store).opened
        = ⟨none, ({} : Store).opened, [.acted (.ofDegrees [1]) (.error (.notRealizable [1])) {}]⟩
      ∧ Fault.notRealizable [1] ≠ .nestedTransaction := by
  have hrefusal : (Action.ofDegrees [1]).refusal = .notRealizable [1] := by cbv
  have hrefused := (Store.refuses_of_inTransaction rfl).action (.ofDegrees [1]) rfl true
    (t := ({} : Store).opened)
  rw [hrefusal] at hrefused
  refine ⟨rfl, hrefused, fun heq ↦ ?_⟩
  cases heq

end DegreeGraph
