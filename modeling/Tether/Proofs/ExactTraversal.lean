import Mathlib.Data.List.Nodup
import Mathlib.Data.Set.Insert
import Tether.Proofs.Places

set_option autoImplicit false

/- A traversal is exact. Whatever the visitor does, it is offered every place of the tree once, in
the order of the traversal and up to its first failure; what it replaces is replaced, and nothing
else. -/
namespace Tether

variable {ε σ : Type}

/-- Calls of a visitor one after another, with what they are offered and what they give back.
Identities may be taken in between. -/
inductive Happens (fresh : EStateM ε σ NodeId) (visit : Expr → EStateM ε σ Expr) :
    σ → List (Expr × Expr) → σ → Prop where
  | done (state : σ) : Happens fresh visit state [] state
  | offer {before between after : σ} {node answer : Expr} {rest : List (Expr × Expr)}
      (visited : visit node before = .ok answer between)
      (more : Happens fresh visit between rest after) :
      Happens fresh visit before ((node, answer) :: rest) after
  | make {before between after : σ} {id : NodeId} {rest : List (Expr × Expr)}
      (made : fresh before = .ok id between) (more : Happens fresh visit between rest after) :
      Happens fresh visit before rest after

/-- Calls of a visitor as a journal has them, up to one that fails. -/
def Fails (fresh : EStateM ε σ NodeId) (visit : Expr → EStateM ε σ Expr) (before : σ)
    (journal : List (Expr × Expr)) (error : ε) (after : σ) : Prop :=
  ∃ offers last rest between, journal = offers ++ last :: rest ∧
    Happens fresh visit before offers between ∧ visit last.1 between = .error error after

/-- One identity is one node. `Valid state known` says that the nodes of `known` exist in a state. A
fresh identity is none of theirs and goes to one new node over some of them; a visit gives a node
that existed or that it has made. -/
structure Identified (fresh : EStateM ε σ NodeId) (visit : Expr → EStateM ε σ Expr)
    (Valid : σ → Set Expr → Prop) : Prop where
  one {state : σ} {known : Set Expr} (valid : Valid state known) {node other : Expr}
    (first : node ∈ known) (second : other ∈ known) (same : node.id = other.id) : node = other
  fresh {state : σ} {known : Set Expr} (valid : Valid state known) :
    ∃ id next, fresh state = .ok id next ∧ (∀ node ∈ known, node.id ≠ id) ∧
      ∀ node : Node Expr, (∀ child ∈ node.children, child ∈ known) →
        Valid next (insert (.mk id node) known)
  visit {state next : σ} {known : Set Expr} {node answer : Expr} (valid : Valid state known)
    (present : node ∈ known) (visited : visit node state = .ok answer next) :
    ∃ known', Valid next known' ∧ known ⊆ known' ∧ answer ∈ known'

variable {fresh : EStateM ε σ NodeId} {visit : Expr → EStateM ε σ Expr}
  {Valid : σ → Set Expr → Prop} {before between after : σ} {known : Set Expr} {error : ε}
  {first second : List (Expr × Expr)}

theorem Happens.append (start : Happens fresh visit before first between)
    (goesOn : Happens fresh visit between second after) :
    Happens fresh visit before (first ++ second) after := by
  induction start with
  | done => exact goesOn
  | offer visited _ ih => exact .offer visited (ih goesOn)
  | make made _ ih => exact .make made (ih goesOn)

theorem Happens.fails (start : Happens fresh visit before first between)
    (failed : Fails fresh visit between second error after) :
    Fails fresh visit before (first ++ second) error after := by
  obtain ⟨offers, last, rest, state, rfl, happened, refused⟩ := failed
  exact ⟨first ++ offers, last, rest, state, by rw [List.append_assoc], start.append happened,
    refused⟩

theorem Fails.append (failed : Fails fresh visit before first error after)
    (rest : List (Expr × Expr)) : Fails fresh visit before (first ++ rest) error after := by
  obtain ⟨offers, last, others, state, rfl, happened, refused⟩ := failed
  exact ⟨offers, last, others ++ rest, state, by simp, happened, refused⟩

theorem fails_here {node : Expr} (refused : visit node before = .error error after) (answer : Expr)
    (rest : List (Expr × Expr)) :
    Fails fresh visit before ((node, answer) :: rest) error after :=
  ⟨[], _, rest, before, rfl, .done before, refused⟩

/-- What a traversal is held to: the offers it makes, what they are, and what comes of them. -/
structure Manner where
  journal : Record → Expr → List (Expr × Expr)
  fits : Record → Expr → Prop
  settled : Record → Expr → Expr → Prop
  idle (expr : Expr) : fits (Record.idle expr) expr

section Traced

variable (fresh visit Valid)

/-- A run over a tree as its manner asks for. -/
def Traced (manner : Manner) (known : Set Expr) (before : σ) (expr : Expr) :
    EStateM.Result ε σ Expr → Prop
  | .ok result after =>
      (∃ known', Valid after known' ∧ known ⊆ known' ∧ result ∈ known') ∧
        ∃ record, manner.fits record expr ∧
          Happens fresh visit before (manner.journal record expr) after ∧
          manner.settled record expr result
  | .error error after =>
      ∃ record, manner.fits record expr ∧
        Fails fresh visit before (manner.journal record expr) error after

/-- A run over the trees of a list in turn. -/
def TracedAll (manner : Manner) (known : Set Expr) (before : σ) (exprs : List Expr) :
    EStateM.Result ε σ (List Expr) → Prop
  | .ok results after =>
      (∃ known', Valid after known' ∧ known ⊆ known' ∧ ∀ result ∈ results, result ∈ known') ∧
        ∃ ended : List (Record × Expr), results = ended.map Prod.snd ∧
          List.Forall₂ (fun expr one => manner.fits one.1 expr ∧ manner.settled one.1 expr one.2)
            exprs ended ∧
          Happens fresh visit before
            (List.zipWith manner.journal (ended.map Prod.fst) exprs).flatten after
  | .error error after =>
      ∃ records, List.Forall₂ (fun expr record => manner.fits record expr) exprs records ∧
        Fails fresh visit before (List.zipWith manner.journal records exprs).flatten error after

end Traced

theorem run_bind {α β : Type} (first : EStateM ε σ α) (next : α → EStateM ε σ β) (before : σ) :
    (first >>= next) before =
      match first before with
      | .ok value between => next value between
      | .error error after => .error error after := rfl

/-- The trees of a list are walked in turn. -/
theorem tracedAll_mapM {manner : Manner} {walk : Expr → EStateM ε σ Expr} {exprs : List Expr}
    (each : ∀ expr ∈ exprs, ∀ known before, Valid before known → expr.Everywhere (· ∈ known) →
      Traced fresh visit Valid manner known before expr (walk expr before))
    (valid : Valid before known) (present : ∀ expr ∈ exprs, expr.Everywhere (· ∈ known)) :
    TracedAll fresh visit Valid manner known before exprs (exprs.mapM walk before) := by
  induction exprs generalizing known before with
  | nil => exact ⟨⟨known, valid, subset_rfl, nofun⟩, [], rfl, .nil, .done before⟩
  | cons expr exprs ih =>
      rw [List.forall_mem_cons] at each present
      have walked := each.1 known before valid present.1
      rw [List.mapM_cons, run_bind]
      cases ran : walk expr before with
      | error error after =>
          rw [ran] at walked
          obtain ⟨record, fits, failed⟩ := walked
          -- Nothing is offered of the trees that come after.
          refine ⟨record :: exprs.map Record.idle, .cons fits ?_, failed.append _⟩
          exact List.forall₂_map_right_iff.mpr (List.forall₂_same.mpr fun other _ =>
            manner.idle other)
      | ok result between =>
          rw [ran] at walked
          obtain ⟨⟨knownBetween, validBetween, grows, made⟩, record, fits, happened, settled⟩ :=
            walked
          have rest := ih each.2 validBetween fun other found part inside =>
            grows (present.2 other found part inside)
          dsimp only
          rw [run_bind]
          cases ranRest : exprs.mapM walk between with
          | error error after =>
              rw [ranRest] at rest
              obtain ⟨records, fitsRest, failed⟩ := rest
              exact ⟨record :: records, .cons fits fitsRest, happened.fails failed⟩
          | ok results after =>
              rw [ranRest] at rest
              obtain ⟨⟨knownAfter, validAfter, growsRest, madeRest⟩, ended, rfl, each,
                happenedRest⟩ := rest
              refine ⟨⟨knownAfter, validAfter, grows.trans growsRest, ?_⟩,
                (record, result) :: ended, rfl, .cons ⟨fits, settled⟩ each,
                happened.append happenedRest⟩
              exact List.forall_mem_cons.mpr ⟨growsRest made, madeRest⟩

section Rebuild

variable {manner : Manner} {walk : Expr → EStateM ε σ Expr} {id : NodeId} {node : Node Expr}

/-- Nodes that exist are the same if their identities are. -/
theorem Identified.eq_of_ids (identified : Identified fresh visit Valid)
    (valid : Valid before known) {results exprs : List Expr}
    (made : ∀ result ∈ results, result ∈ known) (present : ∀ expr ∈ exprs, expr ∈ known)
    (same : results.map Expr.id = exprs.map Expr.id) : results = exprs := by
  refine Expr.eq_of_ids same fun pair found => ?_
  obtain ⟨isExpr, isResult⟩ := List.of_mem_zip found
  exact identified.one valid (made pair.2 isResult) (present pair.1 isExpr)

variable (fresh visit Valid) in
/-- A node over children that were walked in turn. -/
def TracedNode (manner : Manner) (known : Set Expr) (before : σ) (expr : Expr) :
    EStateM.Result ε σ Expr → Prop
  | .ok made after =>
      (∃ known', Valid after known' ∧ known ⊆ known' ∧ made ∈ known') ∧
        ∃ ended : List (Record × Expr),
          List.Forall₂ (fun child one => manner.fits one.1 child ∧ manner.settled one.1 child one.2)
            expr.children ended ∧
          Happens fresh visit before
            (List.zipWith manner.journal (ended.map Prod.fst) expr.children).flatten after ∧
          Remade expr (ended.map Prod.snd) made ∧
          (made = expr → ended.map Prod.snd = expr.children)
  | .error error after =>
      ∃ records, List.Forall₂ (fun child record => manner.fits record child) expr.children records ∧
        Fails fresh visit before (List.zipWith manner.journal records expr.children).flatten error
          after

theorem tracedNode_rebuild (identified : Identified fresh visit Valid)
    (each : ∀ child ∈ node.children, ∀ known before, Valid before known →
      child.Everywhere (· ∈ known) →
      Traced fresh visit Valid manner known before child (walk child before))
    (valid : Valid before known) (present : (Expr.mk id node).Everywhere (· ∈ known)) :
    TracedNode fresh visit Valid manner known before (.mk id node)
      (Expr.rebuild fresh id (node.map fun child => (child, walk child)) before) := by
  have walked := tracedAll_mapM each valid fun child found => present.child found
  rw [Expr.rebuild_map, run_bind]
  cases ran : node.children.mapM walk before with
  | error error after =>
      rw [ran] at walked
      exact walked
  | ok results between =>
      rw [ran] at walked
      obtain ⟨⟨knownBetween, validBetween, grows, made⟩, ended, rfl, fits, happened⟩ := walked
      have count : (ended.map Prod.snd).length = node.children.length := by
        rw [List.length_map, fits.length_eq]
      dsimp only
      split
      · rename_i same
        have unchanged : ended.map Prod.snd = node.children :=
          identified.eq_of_ids validBetween made
            (fun child found => grows (present.child found).here) (eq_of_beq same)
        exact ⟨⟨knownBetween, validBetween, grows, grows present.here⟩, ended, fits, happened,
          ⟨rfl, unchanged.symm, fun _ => rfl⟩, fun _ => unchanged⟩
      · rename_i changed
        cases isRebuilt : node.withChildren? (ended.map Prod.snd) with
        | none =>
            -- A node without children has nothing to change.
            rw [Node.withChildren?_none isRebuilt] at changed count
            rw [List.eq_nil_of_length_eq_zero count] at changed
            exact absurd rfl changed
        | some rebuilt =>
            obtain ⟨new, after, taken, isNew, goesOn⟩ := identified.fresh validBetween
            have children := Node.children_withChildren? isRebuilt count
            have ran : (do return .mk (← fresh) rebuilt : EStateM ε σ Expr) between =
                .ok (.mk new rebuilt) after := by
              rw [run_bind, taken]
              rfl
            dsimp only
            rw [ran]
            have valid := goesOn rebuilt fun child found => made child (children ▸ found)
            have newer : Expr.mk new rebuilt ≠ .mk id node := fun same =>
              isNew _ (grows present.here) (congrArg Expr.id same).symm
            refine ⟨⟨_, valid, grows.trans (Set.subset_insert _ _), Set.mem_insert _ _⟩, ended,
              fits, ?_, ⟨Node.shape_withChildren? isRebuilt, children, fun unchanged => ?_⟩,
              fun same => absurd same newer⟩
            · rw [← List.append_nil (List.flatten _)]
              exact happened.append (.make taken (.done after))
            · have same := congrArg (List.map Expr.id) unchanged
              exact absurd (beq_iff_eq.mpr same) changed

end Rebuild

section Orders

/-- Parents first: every part is offered as it stands. -/
def Manner.preorder : Manner where
  journal := Record.journal
  fits := Record.Offers
  settled record expr result :=
    Substituted record expr result ∧ (result = expr → record.KeepsAll expr)
  idle := Record.idle_offers

/-- Children first: every part is offered over what came back for its children. -/
def Manner.postorder : Manner where
  journal := Record.journalAfter
  fits := Record.OffersRemade
  settled record expr result := Substituted record expr result ∧ result = (record []).2
  idle := Record.idle_offersRemade

variable {id : NodeId} {node : Node Expr}

theorem accept_preorder_mk (fresh : EStateM ε σ NodeId) (visit : Expr → EStateM ε σ Expr)
    (id : NodeId) (node : Node Expr) :
    Expr.accept fresh .preorder visit (.mk id node) = (do
      let visited ← visit (.mk id node)
      if visited.id != id then
        pure visited
      else
        Expr.rebuild fresh id
          (node.map fun child => (child, Expr.accept fresh .preorder visit child))) := by
  rw [Expr.accept, Expr.descend, Expr.para_mk, Node.map_fst_pair]

theorem accept_postorder_mk (fresh : EStateM ε σ NodeId) (visit : Expr → EStateM ε σ Expr)
    (id : NodeId) (node : Node Expr) :
    Expr.accept fresh .postorder visit (.mk id node) = (do
      visit (← Expr.rebuild fresh id
        (node.map fun child => (child, Expr.accept fresh .postorder visit child)))) := by
  rw [Expr.accept, Expr.para_mk]

/-- Substitution in a node that is kept, from the records of its children. -/
theorem substituted_ofChildren {expr offered made : Expr} {ended : List (Record × Expr)}
    (each : List.Forall₂ (fun child one => Substituted one.1 child one.2) expr.children ended)
    (remade : Remade expr (ended.map Prod.snd) made) :
    Substituted (Record.ofChildren (offered, offered) (ended.map Prod.fst)) expr made := by
  refine .of_children (Bool.eq_false_iff.mp (Record.replaces_ofChildren offered _)) remade.shape ?_
    fun unchanged => remade.same (remade.children ▸ unchanged)
  intro step child here
  obtain ⟨one, there, below⟩ := getElem?_of_forall₂ each here
  refine ⟨one.2, ?_, ?_⟩
  · rw [remade.children, List.getElem?_map, there]
    rfl
  · rw [Record.below_ofChildren (by rw [List.getElem?_map, there]; rfl)]
    exact below

/-- A node that gives back its own children keeps all that they keep. -/
theorem keepsAll_ofChildren {expr : Expr} {ended : List (Record × Expr)}
    (each : List.Forall₂ (fun child one => one.2 = child → one.1.KeepsAll child) expr.children
      ended) (unchanged : ended.map Prod.snd = expr.children) :
    (Record.ofChildren (expr, expr) (ended.map Prod.fst)).KeepsAll expr := by
  intro place part found reached
  cases place with
  | nil => exact Bool.eq_false_iff.mp (Record.replaces_ofChildren expr _)
  | cons step place =>
      obtain ⟨child, here, found⟩ := Expr.part?_cons.mp found
      obtain ⟨one, there, keeps⟩ := getElem?_of_forall₂ each here
      have own : one.2 = child := by
        rw [← unchanged, List.getElem?_map, there] at here
        exact Option.some.inj here
      have isBelow : (Record.ofChildren (expr, expr) (ended.map Prod.fst)).below step = one.1 :=
        Record.below_ofChildren (by rw [List.getElem?_map, there]; rfl)
      rw [Record.reaches_cons, isBelow, Bool.and_eq_true] at reached
      have kept := keeps own place part found reached.2
      rw [← isBelow] at kept
      exact kept

theorem map_snd_eq_answers {exprs : List Expr} {ended : List (Record × Expr)}
    (each : List.Forall₂ (fun _ one => one.2 = (one.1 []).2) exprs ended) :
    ended.map Prod.snd = (ended.map Prod.fst).map fun record => (record []).2 := by
  induction each with
  | nil => rfl
  | cons first _ ih => exact congrArg₂ List.cons first ih

theorem Remade.exists_of_length (part : Expr) {results : List Expr}
    (count : results.length = part.children.length) : ∃ made, Remade part results made := by
  by_cases unchanged : results = part.children
  · exact ⟨part, rfl, unchanged.symm, fun _ => rfl⟩
  · cases rebuilt : part.node.withChildren? results with
    | none =>
        have none : part.children = [] := Node.withChildren?_none rebuilt
        rw [none] at unchanged count
        exact absurd (List.eq_nil_of_length_eq_zero count) unchanged
    | some node =>
        exact ⟨.mk 0 node, Node.shape_withChildren? rebuilt,
          Node.children_withChildren? rebuilt count, fun same => absurd same unchanged⟩

/-- Parents first, a node that the visitor gives back. -/
theorem traced_preorder_kept {knownBetween : Set Expr} {ran : EStateM.Result ε σ Expr}
    (visited : visit (.mk id node) before = .ok (.mk id node) between)
    (grows : known ⊆ knownBetween)
    (walked : TracedNode fresh visit Valid .preorder knownBetween between (.mk id node) ran) :
    Traced fresh visit Valid .preorder known before (.mk id node) ran := by
  cases ran with
  | error error after =>
      obtain ⟨records, fits, failed⟩ := walked
      refine ⟨.ofChildren (.mk id node, .mk id node) records, .ofChildren fits, ?_⟩
      change Fails fresh visit before (Record.journal _ _) error after
      rw [Record.journal_ofChildren _ fits.length_eq.symm]
      exact Happens.fails (.offer visited (.done between)) failed
  | ok made after =>
      obtain ⟨⟨knownAfter, validAfter, growsAgain, isMade⟩, ended, each, happened, remade,
        unchanged⟩ := walked
      have fits : List.Forall₂ (fun child record => Record.Offers record child) node.children
          (ended.map Prod.fst) :=
        List.forall₂_map_right_iff.mpr (each.imp fun _ _ both => both.1)
      refine ⟨⟨knownAfter, validAfter, grows.trans growsAgain, isMade⟩,
        .ofChildren (.mk id node, .mk id node) (ended.map Prod.fst), .ofChildren fits, ?_, ?_,
        fun same => ?_⟩
      · change Happens fresh visit before (Record.journal _ _) after
        rw [Record.journal_ofChildren _ fits.length_eq.symm]
        exact .offer visited happened
      · exact substituted_ofChildren (each.imp fun _ _ both => both.2.1) remade
      · exact keepsAll_ofChildren (each.imp fun _ _ both => both.2.2) (unchanged same)

theorem traced_preorder (identified : Identified fresh visit Valid) (expr : Expr)
    {known : Set Expr} {before : σ} (valid : Valid before known)
    (present : expr.Everywhere (· ∈ known)) :
    Traced fresh visit Valid .preorder known before expr
      (expr.accept fresh .preorder visit before) := by
  induction expr using Expr.children_induct generalizing known before with
  | step id node ih =>
      -- The records of the children where the walk does not come to them.
      have idle : List.Forall₂ (fun child record => Record.Offers record child) node.children
          (node.children.map Record.idle) :=
        List.forall₂_map_right_iff.mpr (List.forall₂_same.mpr fun child _ =>
          Record.idle_offers child)
      rw [accept_preorder_mk, run_bind]
      cases visited : visit (.mk id node) before with
      | error error after =>
          refine ⟨.ofChildren (.mk id node, .mk id node) (node.children.map Record.idle),
            .ofChildren idle, ?_⟩
          change Fails fresh visit before (Record.journal _ _) error after
          rw [Record.journal_ofChildren _ idle.length_eq.symm]
          exact fails_here visited _ _
      | ok answer between =>
          obtain ⟨knownBetween, validBetween, grows, isKnown⟩ :=
            identified.visit valid present.here visited
          dsimp only
          split
          · rename_i other
            have replaced : (Record.ofChildren (.mk id node, answer)
                (node.children.map Record.idle)).replaces [] := other
            have differs : answer ≠ .mk id node := fun same => by simp [same, Expr.id] at other
            refine ⟨⟨knownBetween, validBetween, grows, isKnown⟩, _, .ofChildren idle, ?_,
              .of_replaced replaced rfl, fun same => absurd same differs⟩
            change Happens fresh visit before (Record.journal _ _) between
            rw [Record.journal_replaced replaced]
            exact .offer visited (.done between)
          · rename_i own
            have same : answer.id = id := by simpa using own
            obtain rfl : answer = .mk id node :=
              identified.one validBetween isKnown (grows present.here) same
            exact traced_preorder_kept visited grows (tracedNode_rebuild identified
              (fun child found _ _ => ih child found) validBetween
              fun part found => grows (present part found))

/-- Children first, the visitor has the last word on a node over new children. -/
theorem traced_postorder_offered (identified : Identified fresh visit Valid) {made : Expr}
    (walked : TracedNode fresh visit Valid .postorder known before (.mk id node)
      (.ok made between)) :
    Traced fresh visit Valid .postorder known before (.mk id node) (visit made between) := by
  obtain ⟨⟨knownBetween, validBetween, grows, isMade⟩, ended, each, happened, remade, -⟩ := walked
  have fits : List.Forall₂ (fun child record => Record.OffersRemade record child) node.children
      (ended.map Prod.fst) :=
    List.forall₂_map_right_iff.mpr (each.imp fun _ _ both => both.1)
  have own := map_snd_eq_answers (each.imp fun _ _ both => both.2.2)
  cases visited : visit made between with
  | error error after =>
      refine ⟨.ofChildren (made, made) (ended.map Prod.fst), .ofChildren fits (own ▸ remade), ?_⟩
      change Fails fresh visit before (Record.journalAfter _ _) error after
      rw [Record.journalAfter_ofChildren _ fits.length_eq.symm]
      exact happened.fails (fails_here visited _ _)
  | ok answer after =>
      obtain ⟨knownAfter, validAfter, growsAgain, isKnown⟩ :=
        identified.visit validBetween isMade visited
      refine ⟨⟨knownAfter, validAfter, grows.trans growsAgain, isKnown⟩,
        .ofChildren (made, answer) (ended.map Prod.fst), .ofChildren fits (own ▸ remade), ?_, ?_,
        rfl⟩
      · change Happens fresh visit before (Record.journalAfter _ _) after
        rw [Record.journalAfter_ofChildren _ fits.length_eq.symm]
        exact happened.append (.offer visited (.done after))
      · by_cases other : answer.id = made.id
        · obtain rfl : answer = made :=
            identified.one validAfter isKnown (growsAgain isMade) other
          exact substituted_ofChildren (each.imp fun _ _ both => both.2.1) remade
        · exact .of_replaced (by simpa [Record.replaces, Record.ofChildren] using other) rfl

theorem traced_postorder (identified : Identified fresh visit Valid) (expr : Expr)
    {known : Set Expr} {before : σ} (valid : Valid before known)
    (present : expr.Everywhere (· ∈ known)) :
    Traced fresh visit Valid .postorder known before expr
      (expr.accept fresh .postorder visit before) := by
  induction expr using Expr.children_induct generalizing known before with
  | step id node ih =>
      have walked := tracedNode_rebuild identified (fun child found _ _ => ih child found) valid
        present
      rw [accept_postorder_mk, run_bind]
      cases ran : Expr.rebuild fresh id
          (node.map fun child => (child, child.accept fresh .postorder visit)) before with
      | error error after =>
          rw [ran] at walked
          obtain ⟨records, fits, failed⟩ := walked
          have count : (records.map fun record => (record []).2).length =
              (Expr.mk id node).children.length := by
            rw [List.length_map, fits.length_eq]
          -- The node itself is never offered, and any node over these children will do.
          obtain ⟨offered, remade⟩ := Remade.exists_of_length (.mk id node) count
          refine ⟨.ofChildren (offered, offered) records, .ofChildren fits remade, ?_⟩
          change Fails fresh visit before (Record.journalAfter _ _) error after
          rw [Record.journalAfter_ofChildren _ fits.length_eq.symm]
          exact failed.append _
      | ok made between =>
          rw [ran] at walked
          exact traced_postorder_offered identified walked

end Orders

section Counting

variable {counter : σ → NodeId}

/-- Nodes that have identities of their own below a counter. -/
structure Counted (counter : σ → NodeId) (state : σ) (known : Set Expr) : Prop where
  below {node : Expr} (found : node ∈ known) : node.id < counter state
  one {node other : Expr} (first : node ∈ known) (second : other ∈ known)
    (same : node.id = other.id) : node = other

theorem Counted.mono (counted : Counted counter before known)
    (later : counter before ≤ counter after) : Counted counter after known :=
  ⟨fun found => Nat.lt_of_lt_of_le (counted.below found) later, counted.one⟩

theorem Counted.insert {node : Expr} (counted : Counted counter before known)
    (isNew : counter before ≤ node.id) (below : node.id < counter after) :
    Counted counter after (insert node known) := by
  have other {old : Expr} (found : old ∈ known) : old.id < node.id :=
    Nat.lt_of_lt_of_le (counted.below found) isNew
  constructor
  · rintro old (rfl | found)
    · exact below
    · exact Nat.lt_trans (other found) below
  · rintro first second (rfl | isFirst) (rfl | isSecond) same
    · rfl
    · exact absurd same (Nat.ne_of_gt (other isSecond))
    · exact absurd same (Nat.ne_of_lt (other isFirst))
    · exact counted.one isFirst isSecond same

/-- A visitor that answers with what it is offered, or with a new node, over identities that are
counted up. -/
theorem Identified.of_counter
    (counts : ∀ state, ∃ next, fresh state = .ok (counter state) next ∧
      counter next = counter state + 1)
    (visits : ∀ {node state answer next}, visit node state = .ok answer next →
      counter state ≤ counter next ∧
        (answer = node ∨ counter state ≤ answer.id ∧ answer.id < counter next)) :
    Identified fresh visit (Counted counter) where
  one counted _ _ first second same := counted.one first second same
  fresh {state _} counted := by
    obtain ⟨next, taken, goesOn⟩ := counts state
    refine ⟨_, next, taken, fun node found => Nat.ne_of_lt (counted.below found), fun node _ => ?_⟩
    exact counted.insert (Nat.le_refl _) (goesOn ▸ Nat.lt_succ_self _)
  visit {_ _ known _ answer} counted present visited := by
    obtain ⟨later, rfl | ⟨isNew, below⟩⟩ := visits visited
    · exact ⟨known, counted.mono later, subset_rfl, present⟩
    · exact ⟨insert answer known, counted.insert isNew below, Set.subset_insert _ _,
        Set.mem_insert _ _⟩

end Counting

/-- A traversal offers every part of a tree once, as it stands or over what came back for its
children, in order and up to the first failure. What comes of it is the tree with just the answers
that are other nodes put in the place of what was offered. -/
theorem Expr.accept_exact (identified : Identified fresh visit Valid) (valid : Valid before known)
    {tree : Expr} (present : tree.Everywhere (· ∈ known)) :
    ((∀ place, place ∈ tree.places ↔ (tree.part? place).isSome) ∧
      tree.places.Pairwise (· < ·) ∧
      match tree.accept fresh .preorder visit before with
      | .ok result after => ∃ record : Record, record.Offers tree ∧
          Happens fresh visit before (record.journal tree) after ∧
          Substituted record tree result ∧ (result = tree ↔ record.KeepsAll tree)
      | .error error after => ∃ record : Record, record.Offers tree ∧
          Fails fresh visit before (record.journal tree) error after) ∧
    (∀ place, place ∈ tree.placesAfter ↔ (tree.part? place).isSome) ∧
      tree.placesAfter.Pairwise Place.Earlier ∧
      match tree.accept fresh .postorder visit before with
      | .ok result after => ∃ record : Record, record.OffersRemade tree ∧
          Happens fresh visit before (record.journalAfter tree) after ∧
          Substituted record tree result ∧ result = (record []).2 ∧
          (record.KeepsAll tree → result = tree)
      | .error error after => ∃ record : Record, record.OffersRemade tree ∧
          Fails fresh visit before (record.journalAfter tree) error after := by
  refine ⟨⟨tree.mem_places, tree.places_sorted, ?_⟩, tree.mem_placesAfter,
    tree.placesAfter_sorted, ?_⟩
  · have traced := traced_preorder identified tree valid present
    cases ran : tree.accept fresh .preorder visit before with
    | error error after =>
        rw [ran] at traced
        exact traced
    | ok result after =>
        rw [ran] at traced
        obtain ⟨-, record, offers, happened, substituted, keeps⟩ := traced
        exact ⟨record, offers, happened, substituted, keeps, substituted.eq_of_keepsAll⟩
  · have traced := traced_postorder identified tree valid present
    cases ran : tree.accept fresh .postorder visit before with
    | error error after =>
        rw [ran] at traced
        exact traced
    | ok result after =>
        rw [ran] at traced
        obtain ⟨-, record, offers, happened, substituted, isAnswer⟩ := traced
        exact ⟨record, offers, happened, substituted, isAnswer, substituted.eq_of_keepsAll⟩

section Limit

/-- Puts a number in the place of the name `limit`, and fails at any other name. -/
def fillLimit : Expr → EStateM String NodeId Expr
  | .mk _ (.member none name), next =>
      if name = "limit" then .ok (.mk next (.constant (.int 7))) (next + 1)
      else .error name next
  | expr, next => .ok expr next

def countUp : EStateM String NodeId NodeId :=
  fun next => .ok next (next + 1)

/-- A product of numbers, and a name to add to it. -/
def sumWith (name : String) : Expr :=
  .mk 0 (.binary .add (.mk 1 (.binary .mul (.mk 2 (.constant (.int 2)))
    (.mk 3 (.constant (.int 3))))) (.mk 4 (.member none name)))

theorem fillLimit_identified : Identified countUp fillLimit (Counted fun next => next) := by
  refine .of_counter (fun state => ⟨state + 1, rfl, rfl⟩) fun {node state answer next} visited => ?_
  unfold fillLimit at visited
  split at visited
  · split at visited
    · cases visited
      exact ⟨Nat.le_succ state, .inr ⟨Nat.le_refl state, Nat.lt_succ_self state⟩⟩
    · cases visited
  · cases visited
    exact ⟨Nat.le_refl state, .inl rfl⟩

theorem sumWith_counted (name : String) :
    Counted (fun next : NodeId => next) 5 { part | part ∈ (sumWith name).preorder } := by
  have ids : (sumWith name).preorder.map Expr.id = [0, 1, 2, 3, 4] := rfl
  constructor
  · intro node found
    have bound : ∀ id ∈ [0, 1, 2, 3, 4], id < 5 := by decide
    exact bound _ (ids ▸ List.mem_map_of_mem found)
  · intro node other first second same
    have apart : ((sumWith name).preorder.map Expr.id).Nodup := ids ▸ by decide
    exact List.inj_on_of_nodup_map apart first second same

/-- Parents first, the product stays and the name is replaced. Children first, another name fails,
and nothing comes of it. -/
theorem Expr.accept_exact_limit :
    (∃ record : Record, record.Offers (sumWith "limit") ∧
      Happens countUp fillLimit 5 (record.journal (sumWith "limit")) 7 ∧
      Substituted record (sumWith "limit") (.mk 6 (.binary .add (.mk 1 (.binary .mul
        (.mk 2 (.constant (.int 2))) (.mk 3 (.constant (.int 3))))) (.mk 5 (.constant (.int 7))))) ∧
      ¬ record.KeepsAll (sumWith "limit")) ∧
    ∃ record : Record, record.OffersRemade (sumWith "bound") ∧
      Fails countUp fillLimit 5 (record.journalAfter (sumWith "bound")) "bound" 5 := by
  obtain ⟨⟨-, -, filled⟩, -⟩ := accept_exact fillLimit_identified (sumWith_counted "limit")
    fun _ found => found
  obtain ⟨-, -, -, failed⟩ := accept_exact fillLimit_identified (sumWith_counted "bound")
    fun _ found => found
  obtain ⟨record, offers, happened, substituted, same⟩ := filled
  refine ⟨⟨record, offers, happened, substituted, fun keepsAll => ?_⟩, failed⟩
  exact absurd (congrArg Expr.id (same.mpr keepsAll)) (by decide)

end Limit

end Tether
