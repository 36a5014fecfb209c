import DegreeGraph.Proofs.Store.Placing
import DegreeGraph.Proofs.Store.View

/-!
# Histories

The history of a store is told by the calls that linked two nodes, in the order in which they came.
A step takes the calls so far along and notes every new one (`NotingM`). Those of a transaction that
fails are struck out (`Step.calls`).

A step that notes its calls does the same as one that does not (`NotingM.Mirrors`), and the links of
a store are at any time those of the calls that have been kept (`Store.Past.accounts`). So the
simple view of a store tells, for any two nodes, which of the calls on them came last
(`Store.Past.view_shows_latest`).
-/

namespace DegreeGraph

variable {α β : Type} {s t : Store}

/-! ## Noting calls -/

/-- A call that linked two nodes. -/
structure LinkCall where
  first : ℕ
  second : ℕ
  type : Datum

/-- The nodes of a call, in no order. -/
def LinkCall.pair (call : LinkCall) : Sym2 ℕ := s(call.first, call.second)

/-- The call that names two nodes in some way. -/
def Store.callOf? (s : Store) (a b type : Datum) : Option LinkCall :=
  match s.handle? a, s.handle? b with
  | some h, some k => some ⟨h, k, type⟩
  | _, _ => none

/-- A step on a store that notes the calls that link nodes. -/
abbrev NotingM := StateT (List LinkCall) StoreM

namespace NotingM

/-- A link between two nodes; a call that fails is not noted. -/
def createEdge (a b type : Datum) : NotingM Unit := fun calls ↦ do
  Store.createEdge a b type
  return ((), calls ++ ((← get).callOf? a b type).toList)

/-- The nodes of an edge are looked up or made, and linked. -/
def placeEdge (layout : Layout) (ends : Ends) : NotingM Unit := do
  let a ← Store.placeNode layout ends.1
  let b ← Store.placeNode layout ends.2
  createEdge (.int a) (.int b) layout.relationship

/-- Edges are placed one after the other. -/
def placeEdges (layout : Layout) : List Ends → NotingM Unit
  | [] => pure ()
  | ends :: rest => do
    placeEdge layout ends
    placeEdges layout rest

/-- Writes nodes and edges. -/
def place (layout : Layout) (count : Datum) (ends : List Ends) : NotingM Unit := do
  Store.placeNodes layout (← Store.lift (Store.numberedNodes layout count))
  placeEdges layout ends

/-- A body of steps as one transaction; when it fails, nothing is left of what it noted. -/
def transaction (body : NotingM α) : NotingM α := fun calls ↦ Store.transaction (body.run calls)

/-- Writes a collection of edges over a number of nodes, which may be missing. -/
def materialize (layout : Layout) (edges : Datum) (count : Datum) : NotingM ℕ := do
  let ends ← Store.lift (sortedEnds edges)
  transaction (place layout count ends)
  return ends.length

/-- Realizes a degree sequence by a sampler of data and writes the graph. -/
def generateBy (config : Config) (sampler : Datum → Sampling) (sequence : Datum) :
    NotingM Realization := do
  let degrees ← Store.lift (partsOf sequence)
  let r ← Store.lift (sampler (.list degrees)).answer
  let _ ← materialize config.layout r.edgeData (.int degrees.length)
  return r

/-- Realizes a degree sequence and writes the graph. -/
def generateGraph (registry : Registry) (config : Config) (draws : Draws) (sequence : Datum) :
    NotingM Realization := do
  Store.lift draws.check
  generateBy config (realize registry config draws) sequence

end NotingM

/-- Does an action; all but three of them link no nodes. -/
def Action.performNoting : Action → NotingM Answer
  | createEdge a b type => do
    NotingM.createEdge a b type
    return .nothing
  | materialize edges given count => do
    let config ← Store.lift (Config.ofFields given)
    return .written (← NotingM.materialize config.layout edges count)
  | generate sequence given registry draws => do
    let config ← Store.lift (Config.ofFields given)
    let r ← NotingM.generateGraph registry config draws sequence
    return .realized r (draws.seed config)
  | action => action.perform

/-- The calls that are kept when an action has ended. -/
def Action.calls (action : Action) (s : Store) (calls : List LinkCall) : List LinkCall :=
  match ((action.performNoting.run calls).run s).1 with
  | .ok (_, calls) => calls
  | .error _ => calls

mutual

/-- The calls that are kept when a step has ended, after those from before it. -/
def Step.calls : Step → Store → List LinkCall → List LinkCall
  | .act action _, s, calls => action.calls s calls
  | .transaction body _, s, calls =>
    if s.inTransaction then calls
    else
      match (runBody body s.opened).fault with
      | none => callsOfBody body s.opened calls
      | some _ => calls

/-- The calls that are kept when steps have been run until a failure goes on from one. -/
def callsOfBody : List Step → Store → List LinkCall → List LinkCall
  | [], _, calls => calls
  | step :: rest, s, calls =>
    match (step.run s).fault with
    | none => callsOfBody rest (step.run s).store (step.calls s calls)
    | some _ => step.calls s calls

end

/-- The states of a store that begins empty, each with the calls that have been kept. -/
inductive Store.Past : Store → List LinkCall → Prop
  | empty (keyProperty : Datum) (limit : Option Int) :
    Past { keyProperty := keyProperty, limit := limit } []
  | step {s : Store} {calls : List LinkCall} (step : Step) : Past s calls →
    Past (step.run s).store (step.calls s calls)
  | opened {s : Store} {calls : List LinkCall} : Past s calls → s.inTransaction = false →
    Past s.opened calls

variable {calls : List LinkCall}

theorem Store.Past.reached (h : s.Past calls) : s.Reached := by
  induction h with
  | empty keyProperty limit => exact .empty keyProperty limit
  | step step _ ih => exact ih.step step
  | opened _ hs ih => exact ih.opened hs

/-- Every state of a store has a history. -/
theorem Store.Reached.exists_past (hs : s.Reached) : ∃ calls, s.Past calls := by
  induction hs with
  | empty keyProperty limit => exact ⟨[], .empty keyProperty limit⟩
  | step step _ ih =>
    obtain ⟨calls, h⟩ := ih
    exact ⟨step.calls _ calls, h.step step⟩
  | opened _ hs ih =>
    obtain ⟨calls, h⟩ := ih
    exact ⟨calls, h.opened hs⟩

/-! ## Steps that link no nodes -/

/-- The step leaves the links of a store as they are. -/
def StoreM.IsQuiet (x : StoreM α) : Prop :=
  ∀ s : Store, (x.run s).2.contents.links = s.contents.links

namespace StoreM.IsQuiet

theorem pure (a : α) : IsQuiet (Pure.pure a : StoreM α) := fun _ ↦ rfl

theorem lift (answer : Except Fault α) : IsQuiet (Store.lift answer) := by
  intro s
  rw [StoreM.run_lift]

theorem bind {x : StoreM α} {f : α → StoreM β} (hx : x.IsQuiet) (hf : ∀ a, (f a).IsQuiet) :
    IsQuiet (x >>= f) := by
  intro s
  have hfirst := hx s
  rw [Stepwise.run_bind]
  rcases hrun : x.run s with ⟨_ | a, t⟩
  · rw [hrun] at hfirst
    exact hfirst
  · rw [hrun] at hfirst
    exact (hf a t).trans hfirst

end StoreM.IsQuiet

namespace Store

theorem isQuiet_find (label key property : Datum) : (find label key property).IsQuiet := by
  intro s
  rw [find_run]

theorem isQuiet_findOrCreate (label key property : Datum) :
    (findOrCreate label key property).IsQuiet := by
  intro s
  rw [findOrCreate_run]
  simp only
  split
  · rfl
  · split
    · rfl
    · split
      · rfl
      · rfl

theorem isQuiet_placeNode (layout : Layout) (d : Datum) : (placeNode layout d).IsQuiet :=
  .bind (.lift _) fun _ ↦ isQuiet_findOrCreate _ _ _

theorem isQuiet_placeNodes (layout : Layout) (ds : List Datum) :
    (placeNodes layout ds).IsQuiet := by
  induction ds with
  | nil => exact .pure ()
  | cons d ds ih => exact (isQuiet_placeNode layout d).bind fun _ ↦ ih

end Store

/-! ## Calls and links -/

/-- A link is the one that a call has made. -/
structure LinkCall.Made (call : LinkCall) (l : Link) : Prop where
  low_eq : l.low = min call.first call.second
  high_eq : l.high = max call.first call.second
  type_eq : l.type = call.type

/-- The links of a store are those of some calls, in order. -/
def Contents.Accounts (c : Contents) (calls : List LinkCall) : Prop :=
  List.Forall₂ LinkCall.Made calls c.links

theorem Contents.Accounts.of_links_eq {c d : Contents} (h : c.Accounts calls)
    (hlinks : d.links = c.links) : d.Accounts calls := by
  rwa [Accounts, hlinks]

/-- A step that notes calls does what another one does, and when it answers, what it has noted
accounts for the links. -/
def NotingM.Mirrors (x : NotingM α) (y : StoreM α) : Prop :=
  ∀ (s : Store) (calls : List LinkCall), match y.run s with
    | (.error fault, t) => (x.run calls).run s = (.error fault, t)
    | (.ok a, t) => ∃ calls', (x.run calls).run s = (.ok (a, calls'), t)
      ∧ (s.contents.Accounts calls → t.contents.Accounts calls')

namespace NotingM.Mirrors

theorem pure (a : α) : Mirrors (Pure.pure a : NotingM α) (Pure.pure a) := fun _ calls ↦
  ⟨calls, rfl, id⟩

/-- A step that links no nodes has nothing to note. -/
theorem of_isQuiet {y : StoreM α} (hy : y.IsQuiet) : Mirrors (y : NotingM α) y := by
  intro s calls
  have hlinks := hy s
  have hrun : ((y : NotingM α).run calls).run s = match y.run s with
      | (.ok a, t) => (.ok (a, calls), t)
      | (.error fault, t) => (.error fault, t) := by
    rw [StateT.run_monadLift, Stepwise.run_bind, monadLift_self]
    rcases y.run s with ⟨_ | a, t⟩
    · rfl
    · rfl
  rcases h : y.run s with ⟨fault | a, t⟩
  · rw [hrun, h]
  · rw [h] at hrun hlinks
    exact ⟨calls, hrun, fun haccounts ↦ haccounts.of_links_eq hlinks⟩

theorem bind {x : NotingM α} {y : StoreM α} {f : α → NotingM β} {g : α → StoreM β}
    (hx : x.Mirrors y) (hf : ∀ a, (f a).Mirrors (g a)) : (x >>= f).Mirrors (y >>= g) := by
  intro s calls
  have hfirst := hx s calls
  rw [StateT.run_bind, Stepwise.run_bind, Stepwise.run_bind]
  rcases hy : y.run s with ⟨fault | a, t⟩
  · rw [hy] at hfirst
    simp only [hfirst]
  · rw [hy] at hfirst
    obtain ⟨calls', hrun, haccounts⟩ := hfirst
    have hrest := hf a t calls'
    simp only [hrun]
    rcases hg : (g a).run t with ⟨fault | b, u⟩
    · rw [hg] at hrest
      exact hrest
    · rw [hg] at hrest
      obtain ⟨calls'', hrun', haccounts'⟩ := hrest
      exact ⟨calls'', hrun', haccounts' ∘ haccounts⟩

theorem lift_bind (answer : Except Fault α) {f : α → NotingM β} {g : α → StoreM β}
    (hf : ∀ a, (f a).Mirrors (g a)) :
    ((Store.lift answer : StoreM α) >>= f : NotingM β).Mirrors (Store.lift answer >>= g) :=
  (of_isQuiet (.lift answer)).bind hf

theorem transaction {x : NotingM α} {y : StoreM α} (hx : x.Mirrors y) :
    (NotingM.transaction x).Mirrors (Store.transaction y) := by
  intro s calls
  have hbody := hx s.opened calls
  have hrun : ((NotingM.transaction x).run calls).run s
      = (Store.transaction (x.run calls)).run s := rfl
  rw [hrun, Store.transaction_run, Store.transaction_run]
  by_cases hs : s.inTransaction
  · rw [if_pos hs, if_pos hs]
  · rw [if_neg hs, if_neg hs]
    rcases hy : y.run s.opened with ⟨fault | a, t⟩
    · rw [hy] at hbody
      simp only [hbody]
      rfl
    · rw [hy] at hbody
      obtain ⟨calls', hrun, haccounts⟩ := hbody
      simp only [hrun]
      exact ⟨calls', rfl, haccounts⟩

end NotingM.Mirrors

namespace NotingM

theorem createEdge_run (a b type : Datum) (calls : List LinkCall) (s : Store) :
    ((createEdge a b type).run calls).run s = match (Store.createEdge a b type).run s with
      | (.ok (), t) => (.ok ((), calls ++ (t.callOf? a b type).toList), t)
      | (.error fault, t) => (.error fault, t) := by
  have hbind : (createEdge a b type).run calls = Store.createEdge a b type >>= fun _ ↦
      get >>= fun s ↦ pure ((), calls ++ (s.callOf? a b type).toList) := rfl
  rw [hbind, Stepwise.run_bind]
  rcases (Store.createEdge a b type).run s with ⟨_ | _, t⟩
  · rfl
  · rfl

theorem mirrors_createEdge (a b type : Datum) :
    (createEdge a b type).Mirrors (Store.createEdge a b type) := by
  intro s calls
  rw [createEdge_run, Store.createEdge_run]
  by_cases hgone : s.attempted.isGone
  · rw [if_pos hgone]
  · rw [if_neg hgone]
    cases ha : s.handle? a with
    | none => rfl
    | some h =>
      cases hb : s.handle? b with
      | none => rfl
      | some k =>
        -- The new link does not change which handles the store knows.
        have hcall (c : Contents) (hc : c.nodes = s.contents.nodes) :
            (s.attempted.withContents c).callOf? a b type = some ⟨h, k, type⟩ := by
          have hhandle (d : Datum) : (s.attempted.withContents c).handle? d = s.handle? d := by
            rw [Store.handle?, Store.handle?, Store.withContents, hc]
          rw [Store.callOf?, hhandle, hhandle, ha, hb]
        refine ⟨calls ++ [⟨h, k, type⟩], ?_, fun haccounts ↦ ?_⟩
        · exact congrArg (fun call ↦ (Except.ok ((), calls ++ Option.toList call), _)) (hcall _ rfl)
        · exact List.rel_append haccounts (.cons ⟨rfl, rfl, rfl⟩ .nil)

theorem mirrors_placeEdge (layout : Layout) (e : Ends) :
    (placeEdge layout e).Mirrors (Store.placeEdge layout e) :=
  .bind (.of_isQuiet (Store.isQuiet_placeNode layout _)) fun _ ↦
    .bind (.of_isQuiet (Store.isQuiet_placeNode layout _)) fun _ ↦ mirrors_createEdge _ _ _

theorem mirrors_placeEdges (layout : Layout) (es : List Ends) :
    (placeEdges layout es).Mirrors (Store.placeEdges layout es) := by
  induction es with
  | nil => exact .pure ()
  | cons e es ih => exact (mirrors_placeEdge layout e).bind fun _ ↦ ih

theorem mirrors_place (layout : Layout) (count : Datum) (es : List Ends) :
    (place layout count es).Mirrors (Store.place layout count es) :=
  .lift_bind _ fun ds ↦ .bind (.of_isQuiet (Store.isQuiet_placeNodes layout ds)) fun _ ↦
    mirrors_placeEdges layout es

theorem mirrors_materialize (layout : Layout) (edges count : Datum) :
    (materialize layout edges count).Mirrors (Store.materialize layout edges count) :=
  .lift_bind _ fun es ↦ (mirrors_place layout count es).transaction.bind fun _ ↦ .pure _

theorem mirrors_generateBy (config : Config) (sampler : Datum → Sampling) (sequence : Datum) :
    (generateBy config sampler sequence).Mirrors (Store.generateBy config sampler sequence) :=
  .lift_bind _ fun _ ↦ .lift_bind _ fun _ ↦ (mirrors_materialize _ _ _).bind fun _ ↦ .pure _

theorem mirrors_generateGraph (registry : Registry) (config : Config) (draws : Draws)
    (sequence : Datum) : (generateGraph registry config draws sequence).Mirrors
      (Store.generateGraph registry config draws sequence) :=
  .lift_bind _ fun _ ↦ mirrors_generateBy _ _ _

end NotingM

theorem Action.mirrors_performNoting (action : Action) :
    action.performNoting.Mirrors action.perform := by
  cases action with
  | findOrCreate label key property =>
    exact .of_isQuiet ((Store.isQuiet_findOrCreate label key property).bind fun _ ↦ .pure _)
  | find label key property =>
    exact .of_isQuiet ((Store.isQuiet_find label key property).bind fun _ ↦ .pure _)
  | createEdge a b type => exact (NotingM.mirrors_createEdge a b type).bind fun _ ↦ .pure _
  | counts => exact .of_isQuiet fun _ ↦ rfl
  | view => exact .of_isQuiet fun _ ↦ rfl
  | setLimit limit => exact .of_isQuiet fun _ ↦ rfl
  | fail fault => exact .of_isQuiet fun _ ↦ rfl
  | materialize edges given count =>
    exact .lift_bind _ fun _ ↦ (NotingM.mirrors_materialize _ _ _).bind fun _ ↦ .pure _
  | generate sequence given registry draws =>
    exact .lift_bind _ fun _ ↦ (NotingM.mirrors_generateGraph _ _ _ _).bind fun _ ↦ .pure _

/-! ## Whole histories -/

theorem Store.isAtomic_createEdge (a b type : Datum) : (createEdge a b type).IsAtomic := by
  intro s fault
  rw [createEdge_run]
  split
  · exact fun _ ↦ rfl
  · split
    · nofun
    · exact fun _ ↦ rfl

theorem Store.isAtomic_generateGraph (registry : Registry) (config : Config) (draws : Draws)
    (sequence : Datum) : (generateGraph registry config draws sequence).IsAtomic :=
  .lift_bind _ fun _ ↦ isAtomic_generateBy _ _ _

/-- An action that fails has linked nothing that is still linked. -/
theorem Action.links_eq_of_error (action : Action) (s : Store) {fault : Fault}
    (h : (action.perform.run s).1 = .error fault) :
    (action.perform.run s).2.contents.links = s.contents.links := by
  have hatomic (ha : action.perform.IsAtomic) :
      (action.perform.run s).2.contents.links = s.contents.links :=
    congrArg Contents.links (ha s fault h)
  cases action with
  | findOrCreate label key property =>
    exact (Store.isQuiet_findOrCreate label key property).bind (fun _ ↦ .pure _) s
  | find label key property =>
    exact (Store.isQuiet_find label key property).bind (fun _ ↦ .pure _) s
  | createEdge a b type => exact hatomic ((Store.isAtomic_createEdge a b type).bind_pure _)
  | counts => rfl
  | view => rfl
  | setLimit limit => rfl
  | fail fault => rfl
  | materialize edges given count =>
    exact hatomic (.lift_bind _ fun _ ↦ (Store.isAtomic_materialize _ _ _).bind_pure _)
  | generate sequence given registry draws =>
    exact hatomic (.lift_bind _ fun _ ↦ (Store.isAtomic_generateGraph _ _ _ _).bind_pure _)

theorem Action.accounts_calls (action : Action) (h : s.contents.Accounts calls) :
    (action.perform.run s).2.contents.Accounts (action.calls s calls) := by
  have hmirrors := action.mirrors_performNoting s calls
  have hlinks (fault : Fault) (h : (action.perform.run s).1 = .error fault) :=
    action.links_eq_of_error s h
  rw [Action.calls]
  rcases hrun : action.perform.run s with ⟨fault | answer, t⟩
  · rw [hrun] at hmirrors hlinks
    simp only [hmirrors]
    exact h.of_links_eq (hlinks fault rfl)
  · rw [hrun] at hmirrors
    obtain ⟨calls', hnoting, haccounts⟩ := hmirrors
    simp only [hnoting]
    exact haccounts h

mutual

/-- The calls that a step keeps account for the links that it leaves. -/
theorem Step.accounts_calls : ∀ (step : Step) {s : Store} {calls : List LinkCall},
    s.contents.Accounts calls → (step.run s).store.contents.Accounts (step.calls s calls)
  | .act action _, _, _, h => action.accounts_calls h
  | .transaction body caught, s, calls, h => by
    rw [Step.calls]
    by_cases hs : s.inTransaction
    · rw [if_pos hs, Step.run, if_pos hs]
      exact h
    · rw [if_neg hs, Step.run, if_neg hs]
      have hbody := accounts_callsOfBody body (s := s.opened) h
      cases hfault : (runBody body s.opened).fault with
      | none =>
        simp only [hfault]
        exact hbody
      | some fault =>
        simp only [hfault]
        exact h

theorem accounts_callsOfBody : ∀ (body : List Step) {s : Store} {calls : List LinkCall},
    s.contents.Accounts calls → (runBody body s).store.contents.Accounts (callsOfBody body s calls)
  | [], _, _, h => h
  | step :: rest, s, calls, h => by
    have hstep := step.accounts_calls h
    rw [runBody, callsOfBody]
    cases hfault : (step.run s).fault with
    | none => exact accounts_callsOfBody rest hstep
    | some fault => exact hstep

end

/-- **The links of a store are those of the calls that have been kept.** -/
theorem Store.Past.accounts (h : s.Past calls) : s.contents.Accounts calls := by
  induction h with
  | empty => exact .nil
  | step step _ ih => exact step.accounts_calls ih
  | opened _ _ ih => exact ih

/-! ## What a view tells of its history -/

theorem LinkCall.Made.joins_iff {call : LinkCall} {l : Link} (h : call.Made l) (a b : ℕ) :
    l.joins a b = true ↔ call.pair = s(a, b) := by
  rw [Link.joins_iff, h.low_eq, h.high_eq, LinkCall.pair, Sym2.eq_iff]
  omega

/-- Two nodes are linked exactly if a call has linked them. -/
theorem exists_joins_iff {links : List Link} (h : List.Forall₂ LinkCall.Made calls links)
    (a b : ℕ) : (∃ l ∈ links, l.joins a b = true) ↔ ∃ call ∈ calls, call.pair = s(a, b) := by
  induction h with
  | nil => simp
  | cons hmade _ ih => simp only [List.exists_mem_cons_iff, ih, hmade.joins_iff]

namespace Contents.Accounts

variable {c : Contents}

/-- What stands before and behind a link was made by what was called before and after its call. -/
theorem exists_call {before after : List Link} {l : Link} (h : c.Accounts calls)
    (hlinks : c.links = before ++ l :: after) :
    ∃ before' call after', calls = before' ++ call :: after' ∧ call.Made l
      ∧ List.Forall₂ LinkCall.Made after' after := by
  rw [Accounts, hlinks] at h
  obtain ⟨call, after', hmade, hafter, heq⟩ :=
    List.forall₂_cons_right_iff.mp (List.forall₂_drop_append calls before (l :: after) h)
  refine ⟨calls.take before.length, call, after', ?_, hmade, hafter⟩
  rw [← heq, List.take_append_drop]

/-- The edge between two nodes shows what the last call on them gave. -/
theorem exists_last_call (hc : c.WellFormed) (h : c.Accounts calls) {e : SimpleEdge}
    (he : e ∈ (SimpleView.ofContents c).edges) :
    ∃ before call after, calls = before ++ call :: after ∧ call.pair = e.pair ∧ e.type = call.type
      ∧ ∀ later ∈ after, later.pair ≠ e.pair := by
  obtain ⟨before, l, after, hlinks, rfl, hlast⟩ := SimpleView.exists_last_link hc he
  obtain ⟨before', call, after', hcalls, hmade, hafter⟩ := h.exists_call hlinks
  have hjoins := (SimpleView.joins_iff_pair_eq hc he l.low l.high).mpr rfl
  refine ⟨before', call, after', hcalls, (hmade.joins_iff _ _).mp hjoins, hmade.type_eq, ?_⟩
  intro later hlater heq
  obtain ⟨m, hm, hagain⟩ := (exists_joins_iff hafter _ _).mpr ⟨later, hlater, heq⟩
  exact hlast m hm hagain

end Contents.Accounts

/-- **The simple view tells what was done last.** At any time it shows the nodes of the store with
their attributes. It joins two of them exactly if a call that linked them has been kept, in either
direction, and then once, with the type that the last of these calls gave. -/
theorem Store.Past.view_shows_latest (h : s.Past calls) :
    ∃ view, Action.view.perform.run s = (.ok (.view view), s)
      ∧ view.nodes.Perm s.contents.nodes
      ∧ (view.edges.map SimpleEdge.pair).Nodup
      ∧ (∀ a b, (∃ e ∈ view.edges, e.pair = s(a, b)) ↔ ∃ call ∈ calls, call.pair = s(a, b))
      ∧ ∀ e ∈ view.edges, ∃ before call after, calls = before ++ call :: after
        ∧ call.pair = e.pair ∧ e.type = call.type ∧ ∀ later ∈ after, later.pair ≠ e.pair := by
  have hs := h.reached.wellFormed
  refine ⟨SimpleView.ofContents s.contents, rfl, SimpleView.perm_nodes_ofContents _,
    SimpleView.nodup_pairs hs, fun a b ↦ ?_, fun e he ↦ h.accounts.exists_last_call hs he⟩
  rw [SimpleView.exists_edge_iff hs, exists_joins_iff h.accounts]

/-- Two nodes are linked in both directions, and a third link is taken back. -/
theorem Store.Past.view_shows_latest_after_rollback :
    let person (key : String) : Step :=
      .act (.findOrCreate (.text "Person") (.text key) .null) false
    let link (a b : ℤ) (type : String) : Step :=
      .act (.createEdge (.int a) (.int b) (.text type)) false
    let failed : Step := .transaction [link 0 1 "likes", .act (.fail .storeGone) false] true
    let people := (runScript [person "Ann", person "Bob"] {}).store
    let linked := ((link 1 0 "trusts").run ((link 0 1 "knows").run people).store).store
    let s := (failed.run linked).store
    let calls : List LinkCall := [⟨0, 1, .text "knows"⟩, ⟨1, 0, .text "trusts"⟩]
    s.Past calls ∧ ∃ view, Action.view.perform.run s = (.ok (.view view), s)
      ∧ (∃ e ∈ view.edges, e.pair = s(0, 1))
      ∧ ∀ e ∈ view.edges, ∃ before call after, calls = before ++ call :: after
        ∧ call.pair = e.pair ∧ e.type = call.type ∧ ∀ later ∈ after, later.pair ≠ e.pair := by
  intro person link failed people linked s calls
  have hpeople : people.Past [] :=
    ((Past.empty (.text "name") none).step (person "Ann")).step (person "Bob")
  have hlinked : linked.Past calls := (hpeople.step (link 0 1 "knows")).step (link 1 0 "trusts")
  have hpast : s.Past calls := hlinked.step failed
  obtain ⟨view, hview, -, -, hjoined, hlatest⟩ := hpast.view_shows_latest
  exact ⟨hpast, view, hview, (hjoined 0 1).mpr ⟨_, List.mem_cons_self, rfl⟩, hlatest⟩

end DegreeGraph
