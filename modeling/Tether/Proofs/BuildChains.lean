import Tether.Proofs.StandardBuild
import Tether.Strategy

set_option autoImplicit false

/- Chains of builders and of strategies. However a chain was put together, it is the stable sort
of what was registered by falling priority, so who decides about a node can be read off the
registrations. A build with the standard chain leaves the context as it was, also when it fails. -/
namespace Tether

section Ranking

variable {α : Type} (priority : α → Int)

/-- Items by falling priority, and as registered among equals. -/
def ranking (items : List α) : List α :=
  items.mergeSort fun first second => priority second ≤ priority first

/-- The items of one priority, as they stand. -/
def atLevel (level : Int) (items : List α) : List α :=
  items.filter (priority · == level)

def Falling (items : List α) : Prop :=
  items.Pairwise fun first second => priority second ≤ priority first

/-- What it is for a chain to be the stable sort of the items registered. -/
structure Ranked (registered chain : List α) : Prop where
  perm : chain.Perm registered
  falling : Falling priority chain
  stable : ∀ level, atLevel priority level chain = atLevel priority level registered

/-- Those asked before an item: of higher priority, or of equal priority and registered earlier. -/
def ahead (earlier : List α) (item : α) (later : List α) : List α :=
  earlier.filter (priority item ≤ priority ·) ++ later.filter (priority item < priority ·)

variable {priority}

theorem mem_atLevel {level : Int} {items : List α} {item : α} :
    item ∈ atLevel priority level items ↔ item ∈ items ∧ priority item = level := by
  rw [atLevel, List.mem_filter, beq_iff_eq]

theorem atLevel_append (level : Int) (items more : List α) :
    atLevel priority level (items ++ more) =
      atLevel priority level items ++ atLevel priority level more :=
  List.filter_append ..

theorem atLevel_cons_self (item : α) (rest : List α) :
    atLevel priority (priority item) (item :: rest) =
      item :: atLevel priority (priority item) rest := by
  simp only [atLevel, List.filter_cons, beq_self_eq_true, if_true]

theorem atLevel_cons_ne {level : Int} {item : α} (other : priority item ≠ level)
    (rest : List α) : atLevel priority level (item :: rest) = atLevel priority level rest := by
  simp only [atLevel, List.filter_cons, beq_eq_false_iff_ne.mpr other, Bool.false_eq_true, if_false]

theorem atLevel_eq_nil {level : Int} {items : List α}
    (elsewhere : ∀ item ∈ items, priority item ≠ level) : atLevel priority level items = [] :=
  List.filter_eq_nil_iff.mpr fun item found => by simpa using elsewhere item found

theorem atLevel_filter (test : Int → Bool) (level : Int) (items : List α) :
    atLevel priority level (items.filter fun item => test (priority item)) =
      if test level then atLevel priority level items else [] := by
  rw [atLevel, List.filter_filter]
  split
  next passes =>
    refine List.filter_congr fun item _ => ?_
    by_cases there : priority item = level
    · simp only [there, passes, beq_self_eq_true, Bool.and_self]
    · simp only [beq_eq_false_iff_ne.mpr there, Bool.false_and]
  next fails =>
    refine List.filter_eq_nil_iff.mpr fun item _ both => ?_
    simp only [Bool.and_eq_true, beq_iff_eq] at both
    exact fails (both.1 ▸ both.2)

theorem atLevel_ahead (level : Int) (earlier : List α) (item : α) (later : List α) :
    atLevel priority level (ahead priority earlier item later) =
      (if priority item ≤ level then atLevel priority level earlier else []) ++
        if priority item < level then atLevel priority level later else [] := by
  rw [ahead, atLevel_append, atLevel_filter (priority item ≤ ·), atLevel_filter (priority item < ·)]
  simp only [decide_eq_true_eq]

theorem ranked_ranking (priority : α → Int) (items : List α) :
    Ranked priority items (ranking priority items) := by
  have trans : ∀ first second third : α,
      decide (priority second ≤ priority first) → decide (priority third ≤ priority second) →
        decide (priority third ≤ priority first) := by
    simp only [decide_eq_true_eq]
    omega
  have total : ∀ first second : α,
      decide (priority second ≤ priority first) || decide (priority first ≤ priority second) := by
    simp only [Bool.or_eq_true, decide_eq_true_eq]
    omega
  have perm : (ranking priority items).Perm items := List.mergeSort_perm ..
  refine ⟨perm, ?_, fun level => ?_⟩
  · exact (List.pairwise_mergeSort trans total items).imp fun ordered => by simpa using ordered
  · -- The items of one level are in order already, so sorting keeps them as a sublist.
    have leveled : (atLevel priority level items).Pairwise fun first second =>
        decide (priority second ≤ priority first) := by
      refine List.Pairwise.imp_of_mem ?_ (List.pairwise_of_forall fun _ _ => trivial)
      intro first second isFirst isSecond _
      rw [(mem_atLevel.mp isFirst).2, (mem_atLevel.mp isSecond).2]
      exact decide_eq_true (Int.le_refl _)
    have kept := (List.sublist_mergeSort trans total leveled List.filter_sublist).filter
      (priority · == level)
    rw [atLevel, List.filter_filter] at kept
    simp only [Bool.and_self] at kept
    exact (kept.eq_of_length (perm.filter _).length_eq.symm).symm

theorem Falling.level_le {item head : α} {rest tail : List α}
    (falling : Falling priority (head :: tail))
    (same : ∀ level,
      atLevel priority level (item :: rest) = atLevel priority level (head :: tail)) :
    priority item ≤ priority head := by
  have found : item ∈ atLevel priority (priority item) (head :: tail) := by
    rw [← same]
    exact mem_atLevel.mpr ⟨List.mem_cons_self .., rfl⟩
  rcases List.mem_cons.mp (mem_atLevel.mp found).1 with rfl | found
  · exact Int.le_refl _
  · exact (List.pairwise_cons.mp falling).1 item found

/-- Falling priorities and the order on each level determine a list. -/
theorem Falling.eq_of_levels {chain other : List α} (falling : Falling priority chain)
    (falling' : Falling priority other)
    (same : ∀ level, atLevel priority level chain = atLevel priority level other) :
    chain = other := by
  induction chain generalizing other with
  | nil =>
      cases other with
      | nil => rfl
      | cons head tail =>
          have listed := same (priority head)
          rw [atLevel_cons_self] at listed
          cases listed
  | cons item rest ih =>
      cases other with
      | nil =>
          have listed := same (priority item)
          rw [atLevel_cons_self] at listed
          cases listed
      | cons head tail =>
          have level : priority item = priority head :=
            Int.le_antisymm (falling'.level_le same)
              (falling.level_le fun level => (same level).symm)
          have listed := same (priority item)
          rw [atLevel_cons_self, level, atLevel_cons_self] at listed
          obtain ⟨rfl, listed⟩ := List.cons.inj listed
          refine congrArg (item :: ·) (ih falling.of_cons falling'.of_cons fun other => ?_)
          by_cases there : priority item = other
          · rw [← there, listed]
          · have elsewhere := same other
            rwa [atLevel_cons_ne there, atLevel_cons_ne there] at elsewhere

theorem ranking_eq_iff {items others : List α} :
    ranking priority items = ranking priority others ↔
      ∀ level, atLevel priority level items = atLevel priority level others := by
  constructor
  · intro same level
    rw [← (ranked_ranking priority items).stable, same, (ranked_ranking priority others).stable]
  · intro same
    refine (ranked_ranking priority items).falling.eq_of_levels
      (ranked_ranking priority others).falling fun level => ?_
    rw [(ranked_ranking ..).stable, (ranked_ranking ..).stable, same]

theorem ranking_append (items more : List α) :
    ranking priority (ranking priority items ++ more) = ranking priority (items ++ more) := by
  refine ranking_eq_iff.mpr fun level => ?_
  rw [atLevel_append, atLevel_append, (ranked_ranking ..).stable]

/-- Sorting again after every registration is sorting once. -/
theorem foldl_ranking (initial added : List α) :
    added.foldl (fun chain item => ranking priority (chain ++ [item])) (ranking priority initial) =
      ranking priority (initial ++ added) := by
  induction added generalizing initial with
  | nil => rw [List.foldl_nil, List.append_nil]
  | cons item added ih =>
      rw [List.foldl_cons, ranking_append, ih, List.append_assoc, List.singleton_append]

theorem ranking_toList (first : Option α) : ranking priority first.toList = first.toList := by
  cases first with
  | none => exact List.mergeSort_of_pairwise List.Pairwise.nil
  | some item => exact List.mergeSort_of_pairwise (List.pairwise_singleton ..)

theorem exists_split_of_level {items front back : List α} {item : α}
    (listed : atLevel priority (priority item) items = front ++ item :: back) :
    ∃ before after, items = before ++ item :: after ∧
      atLevel priority (priority item) before = front := by
  obtain ⟨before, rest, rfl, rfl, restListed⟩ := List.filter_eq_append_iff.mp listed
  obtain ⟨gap, after, rfl, elsewhere, -, -⟩ := List.filter_eq_cons_iff.mp restListed
  refine ⟨before ++ gap, after, (List.append_assoc ..).symm, ?_⟩
  have none : atLevel priority (priority item) gap = [] :=
    List.filter_eq_nil_iff.mpr elsewhere
  rw [atLevel_append, none, List.append_nil]
  rfl

/-- What stands before an item in a chain is what its registration puts ahead of it. -/
theorem Ranked.eq_ahead {earlier later before after : List α} {item : α}
    (ranked : Ranked priority (earlier ++ item :: later) (before ++ item :: after))
    (same : atLevel priority (priority item) before = atLevel priority (priority item) earlier) :
    before = ranking priority (ahead priority earlier item later) := by
  obtain ⟨fallingBefore, fallingAfter, apart⟩ := List.pairwise_append.mp ranked.falling
  have upper : ∀ other ∈ before, priority item ≤ priority other := fun other found =>
    apart other found item (List.mem_cons_self ..)
  have lower : ∀ other ∈ item :: after, priority other ≤ priority item := by
    simpa using (List.pairwise_cons.mp fallingAfter).1
  refine Falling.eq_of_levels fallingBefore (ranked_ranking ..).falling fun level => ?_
  rw [(ranked_ranking ..).stable, atLevel_ahead]
  rcases Int.lt_trichotomy level (priority item) with below | rfl | above
  · rw [if_neg (by omega), if_neg (by omega), List.append_nil]
    exact atLevel_eq_nil fun other found => by have := upper other found; omega
  · rw [if_pos (Int.le_refl _), if_neg (Int.lt_irrefl _), List.append_nil, same]
  · rw [if_pos (Int.le_of_lt above), if_pos above]
    have none : atLevel priority level (item :: after) = [] :=
      atLevel_eq_nil fun other found => by have := lower other found; omega
    have listed := ranked.stable level
    rwa [atLevel_append, none, List.append_nil, atLevel_append,
      atLevel_cons_ne (by omega)] at listed

theorem exists_ranking_eq (priority : α → Int) (earlier : List α) (item : α) (later : List α) :
    ∃ after, ranking priority (earlier ++ item :: later) =
      ranking priority (ahead priority earlier item later) ++ item :: after := by
  have ranked := ranked_ranking priority (earlier ++ item :: later)
  have listed := ranked.stable (priority item)
  rw [atLevel_append, atLevel_cons_self] at listed
  obtain ⟨before, after, split, same⟩ := exists_split_of_level listed
  rw [split] at ranked
  exact ⟨after, split.trans (congrArg (· ++ item :: after) (ranked.eq_ahead same))⟩

theorem exists_registration {registered before after : List α} {item : α}
    (split : ranking priority registered = before ++ item :: after) :
    ∃ earlier later, registered = earlier ++ item :: later ∧
      before = ranking priority (ahead priority earlier item later) := by
  have ranked := ranked_ranking priority registered
  rw [split] at ranked
  have listed := (ranked.stable (priority item)).symm
  rw [atLevel_append, atLevel_cons_self] at listed
  obtain ⟨earlier, later, rfl, same⟩ := exists_split_of_level listed
  exact ⟨earlier, later, rfl, ranked.eq_ahead same.symm⟩

end Ranking

namespace Builder

theorem sort_eq (builders : List Builder) : sort builders = ranking priority builders := rfl

theorem foldl_add (initial added : List Builder) :
    added.foldl add (sort initial) = sort (initial ++ added) :=
  foldl_ranking initial added

/-- Each of the builders asked leaves a node alone. They find the context as those before them
left it. -/
inductive Declined (offer : Offer) :
    List Builder → BuildContext → BuildContext → List String → Prop
  | nil {context : BuildContext} : Declined offer [] context context []
  | cons {builder : Builder} {rest : List Builder} {context asked left : BuildContext}
      {said remarks : List String}
      (declines : builder.respond offer context = ⟨.ok none, asked, said⟩)
      (others : Declined offer rest asked left remarks) :
      Declined offer (builder :: rest) context left (said ++ remarks)

/-- What becomes of a node, read off the registrations: the builder that decides is the one with
everything ahead of it declining, and its failure is final. -/
inductive Answered (registered : List Builder) (offer : Offer) (context : BuildContext) :
    Built Fragment → Prop
  | taken {earlier later : List Builder} {builder : Builder} {asked left : BuildContext}
      {remarks said : List String} {fragment : Fragment}
      (registration : registered = earlier ++ builder :: later)
      (declined : Declined offer (ranking priority (ahead priority earlier builder later)) context
        asked remarks)
      (answers : builder.respond offer asked = ⟨.ok (some fragment), left, said⟩) :
      Answered registered offer context ⟨.ok fragment, left, remarks ++ said⟩
  | failed {earlier later : List Builder} {builder : Builder} {asked left : BuildContext}
      {remarks said : List String} {error : CompileError}
      (registration : registered = earlier ++ builder :: later)
      (declined : Declined offer (ranking priority (ahead priority earlier builder later)) context
        asked remarks)
      (fails : builder.respond offer asked = ⟨.error error, left, said⟩) :
      Answered registered offer context ⟨.error error, left, remarks ++ said⟩
  | leftAlone {left : BuildContext} {remarks : List String}
      (declined : Declined offer (ranking priority registered) context left remarks) :
      Answered registered offer context
        ⟨planFallback left.fallback? offer.expr, left, remarks⟩

open Build

section Answered

variable {offer : Offer} {context asked left : BuildContext} {remarks : List String}

theorem firstAnswer_cons {builder : Builder} {result : Except CompileError (Option Fragment)}
    (responds : builder.respond offer context = ⟨result, left, remarks⟩)
    (decides : result ≠ .ok none) (rest : List Builder) :
    firstAnswer offer (builder :: rest) context = ⟨result, left, remarks⟩ := by
  rw [firstAnswer]
  rcases result with error | _ | fragment
  · exact bind_error responds
  · exact absurd rfl decides
  · rw [bind_ok responds]
    exact congrArg (Built.mk _ _) (List.append_nil _)

theorem Declined.firstAnswer_append {builders rest : List Builder}
    {result : Except CompileError (Option Fragment)} {after : BuildContext} {said : List String}
    (declined : Declined offer builders context left remarks)
    (ended : firstAnswer offer rest left = ⟨result, after, said⟩) :
    firstAnswer offer (builders ++ rest) context = ⟨result, after, remarks ++ said⟩ := by
  induction declined with
  | nil => exact ended
  | cons declines others ih =>
      rw [List.cons_append, firstAnswer, bind_ok declines]
      simp only [ih ended, List.append_assoc]

/-- Either all of a chain decline, or one is reached that does not. -/
theorem exists_decision (offer : Offer) (chain : List Builder) (context : BuildContext) :
    (∃ left remarks, Declined offer chain context left remarks) ∨
      ∃ before builder after asked remarks, chain = before ++ builder :: after ∧
        Declined offer before context asked remarks ∧
        (builder.respond offer asked).result ≠ .ok none := by
  induction chain generalizing context with
  | nil => exact .inl ⟨context, [], .nil⟩
  | cons builder rest ih =>
      by_cases declines : (builder.respond offer context).result = .ok none
      · have responds : builder.respond offer context = ⟨.ok none,
            (builder.respond offer context).context, (builder.respond offer context).remarks⟩ := by
          rw [← declines]
        rcases ih (builder.respond offer context).context with
          ⟨left, remarks, others⟩ | ⟨before, other, after, asked, remarks, rfl, others, decides⟩
        · exact .inl ⟨left, _, .cons responds others⟩
        · exact .inr ⟨builder :: before, other, after, asked, _, rfl, .cons responds others,
            decides⟩
      · exact .inr ⟨[], builder, rest, context, [], rfl, .nil, declines⟩

/-- The first answer of a chain and the fallback table make up what a node becomes. -/
theorem answer_of_first {chain : List Builder} {first : Except CompileError (Option Fragment)}
    (ended : firstAnswer offer chain context = ⟨first, left, remarks⟩) :
    answer chain offer context =
      ⟨first >>= (·.elim (planFallback left.fallback? offer.expr) .ok), left, remarks⟩ := by
  rw [answer]
  rcases first with error | _ | fragment
  · exact bind_error ended
  · rw [bind_ok ended]
    dsimp only
    rw [bind_settled_ok (show Build.context left = settled (.ok left) left from rfl)]
    change _ = Built.mk (planFallback left.fallback? offer.expr) left remarks
    rw [planFallback]
    cases left.fallback? offer.expr <;> exact congrArg (Built.mk _ _) (List.append_nil _)
  · rw [bind_ok ended]
    exact congrArg (Built.mk _ _) (List.append_nil _)

theorem answer_of_decision {earlier later : List Builder} {builder : Builder}
    {result : Except CompileError (Option Fragment)} {said : List String}
    (declined : Declined offer (ranking priority (ahead priority earlier builder later)) context
      asked remarks)
    (responds : builder.respond offer asked = ⟨result, left, said⟩) (decides : result ≠ .ok none) :
    answer (sort (earlier ++ builder :: later)) offer context =
      ⟨result >>= (·.elim (planFallback left.fallback? offer.expr) .ok), left,
        remarks ++ said⟩ := by
  obtain ⟨after, chain⟩ := exists_ranking_eq priority earlier builder later
  rw [sort_eq, chain]
  exact answer_of_first (declined.firstAnswer_append (firstAnswer_cons responds decides after))

theorem Answered.answer_eq {registered : List Builder} {built : Built Fragment}
    (answered : Answered registered offer context built) :
    answer (sort registered) offer context = built := by
  cases answered with
  | taken registration declined answers =>
      rw [registration]
      exact answer_of_decision declined answers nofun
  | failed registration declined fails =>
      rw [registration]
      exact answer_of_decision declined fails nofun
  | @leftAlone left remarks declined =>
      have ended : firstAnswer offer [] left = ⟨.ok none, left, []⟩ := rfl
      have alone := answer_of_first (declined.firstAnswer_append ended)
      rwa [List.append_nil, List.append_nil] at alone

theorem answered_answer (registered : List Builder) (offer : Offer) (context : BuildContext) :
    Answered registered offer context (answer (sort registered) offer context) := by
  rcases exists_decision offer (sort registered) context with
    ⟨left, remarks, declined⟩ | ⟨before, builder, after, asked, remarks, split, declined, decides⟩
  · have alone : Answered registered offer context _ := .leftAlone declined
    exact alone.answer_eq ▸ alone
  · obtain ⟨earlier, later, registration, rfl⟩ := exists_registration split
    rcases responds : builder.respond offer asked with ⟨error | _ | fragment, left, said⟩
    · have failed : Answered registered offer context _ := .failed registration declined responds
      exact failed.answer_eq ▸ failed
    · rw [responds] at decides
      exact absurd rfl decides
    · have taken : Answered registered offer context _ := .taken registration declined responds
      exact taken.answer_eq ▸ taken

theorem answer_eq_iff {registered : List Builder} {built : Built Fragment} :
    answer (sort registered) offer context = built ↔ Answered registered offer context built :=
  ⟨fun same => same ▸ answered_answer registered offer context, Answered.answer_eq⟩

end Answered

/-- A node as a chain offers it to its builders. -/
def offered (chain : List Builder) (expr : Expr) : Offer :=
  ⟨expr.id, expr.node.map fun child => (child, build chain child)⟩

/-- A chain goes by the registrations: it is their stable sort, and they say what becomes of every
node. -/
structure GoesBy (registered chain : List Builder) : Prop where
  sorted : chain = sort registered
  ranked : Ranked priority registered chain
  decides : ∀ (expr : Expr) (context : BuildContext) (built : Built Fragment),
    build chain expr context = built ↔ Answered registered (offered chain expr) context built

theorem goesBy_sort (registered : List Builder) : GoesBy registered (sort registered) where
  sorted := rfl
  ranked := ranked_ranking priority registered
  decides expr context built := by
    obtain ⟨id, node⟩ := expr
    rw [build_mk]
    exact answer_eq_iff

end Builder

namespace Strategy

theorem foldl_add (first : Option Strategy) (added : List Strategy) :
    added.foldl add first.toList = sort (first.toList ++ added) := by
  have folded : added.foldl add (ranking priority first.toList) = _ :=
    foldl_ranking first.toList added
  rwa [ranking_toList] at folded

variable (slots : Slots) (expr : Expr) (metadata : Option Metadata)

/-- What strategies remark when they are asked in turn. -/
def said (strategies : List Strategy) : List String :=
  strategies.flatMap fun strategy => (strategy.attempt slots expr metadata).remarks

def Declines (strategy : Strategy) : Prop :=
  (strategy.attempt slots expr metadata).result = .ok none

/-- What becomes of an expression, read off the registrations. -/
inductive Chosen (registered : List Strategy) : Except CompileError Callee × List String → Prop
  | taken {earlier later : List Strategy} {strategy : Strategy} {callee : Callee}
      (registration : registered = earlier ++ strategy :: later)
      (declined : ∀ other ∈ ahead priority earlier strategy later,
        other.Declines slots expr metadata)
      (answers : (strategy.attempt slots expr metadata).result = .ok (some callee)) :
      Chosen registered (.ok callee, said slots expr metadata
        (ranking priority (ahead priority earlier strategy later) ++ [strategy]))
  | failed {earlier later : List Strategy} {strategy : Strategy} {error : CompileError}
      (registration : registered = earlier ++ strategy :: later)
      (declined : ∀ other ∈ ahead priority earlier strategy later,
        other.Declines slots expr metadata)
      (fails : (strategy.attempt slots expr metadata).result = .error error) :
      Chosen registered (.error error, said slots expr metadata
        (ranking priority (ahead priority earlier strategy later) ++ [strategy]))
  | leftAlone (declined : ∀ other ∈ registered, other.Declines slots expr metadata) :
      Chosen registered
        (.error (.noStrategy expr.text), said slots expr metadata (ranking priority registered))

section Chosen

variable {slots expr metadata}

theorem compile_append {declining : List Strategy}
    (declined : ∀ other ∈ declining, other.Declines slots expr metadata) (rest : List Strategy) :
    compile slots expr metadata (declining ++ rest) =
      ((compile slots expr metadata rest).1,
        said slots expr metadata declining ++ (compile slots expr metadata rest).2) := by
  induction declining with
  | nil => rfl
  | cons strategy declining ih =>
      obtain ⟨declines, others⟩ := List.forall_mem_cons.mp declined
      rw [Declines] at declines
      rw [List.cons_append, compile]
      simp only [declines, ih others, said, List.flatMap_cons, List.append_assoc]

theorem exists_decision (slots : Slots) (expr : Expr) (metadata : Option Metadata)
    (chain : List Strategy) :
    (∀ other ∈ chain, other.Declines slots expr metadata) ∨
      ∃ before strategy after, chain = before ++ strategy :: after ∧
        (∀ other ∈ before, other.Declines slots expr metadata) ∧
        ¬ strategy.Declines slots expr metadata := by
  induction chain with
  | nil => exact .inl nofun
  | cons strategy rest ih =>
      by_cases declines : strategy.Declines slots expr metadata
      · rcases ih with others | ⟨before, other, after, rfl, others, decides⟩
        · exact .inl (List.forall_mem_cons.mpr ⟨declines, others⟩)
        · exact .inr ⟨strategy :: before, other, after, rfl,
            List.forall_mem_cons.mpr ⟨declines, others⟩, decides⟩
      · exact .inr ⟨[], strategy, rest, rfl, nofun, declines⟩

theorem forall_mem_ranking {strategies : List Strategy} :
    (∀ other ∈ ranking priority strategies, other.Declines slots expr metadata) ↔
      ∀ other ∈ strategies, other.Declines slots expr metadata := by
  simp only [(ranked_ranking priority strategies).perm.mem_iff]

theorem compile_of_decision {earlier later : List Strategy} {strategy : Strategy}
    (declined : ∀ other ∈ ahead priority earlier strategy later,
      other.Declines slots expr metadata) :
    ∃ after, compile slots expr metadata (sort (earlier ++ strategy :: later)) =
      ((compile slots expr metadata (strategy :: after)).1,
        said slots expr metadata (ranking priority (ahead priority earlier strategy later)) ++
          (compile slots expr metadata (strategy :: after)).2) := by
  obtain ⟨after, chain⟩ := exists_ranking_eq priority earlier strategy later
  refine ⟨after, ?_⟩
  rw [← compile_append (forall_mem_ranking.mpr declined), ← chain]
  rfl

theorem Chosen.compile_eq {registered : List Strategy}
    {outcome : Except CompileError Callee × List String}
    (chosen : Chosen slots expr metadata registered outcome) :
    compile slots expr metadata (sort registered) = outcome := by
  cases chosen with
  | taken registration declined answers =>
      obtain ⟨after, compiled⟩ := compile_of_decision declined
      rw [registration, compiled, compile]
      simp only [answers, said, List.flatMap_append, List.flatMap_singleton]
  | failed registration declined fails =>
      obtain ⟨after, compiled⟩ := compile_of_decision declined
      rw [registration, compiled, compile]
      simp only [fails, said, List.flatMap_append, List.flatMap_singleton]
  | leftAlone declined =>
      have compiled := compile_append (forall_mem_ranking.mpr declined) []
      rwa [List.append_nil, compile, List.append_nil] at compiled

theorem chosen_compile (registered : List Strategy) :
    Chosen slots expr metadata registered (compile slots expr metadata (sort registered)) := by
  rcases exists_decision slots expr metadata (sort registered) with
    declined | ⟨before, strategy, after, split, declined, decides⟩
  · have alone := Chosen.leftAlone (forall_mem_ranking.mp declined)
    exact alone.compile_eq ▸ alone
  · obtain ⟨earlier, later, registration, rfl⟩ := exists_registration split
    rw [forall_mem_ranking] at declined
    rcases result : (strategy.attempt slots expr metadata).result with error | _ | callee
    · have failed := Chosen.failed registration declined result
      exact failed.compile_eq ▸ failed
    · exact absurd result decides
    · have taken := Chosen.taken registration declined result
      exact taken.compile_eq ▸ taken

end Chosen

structure GoesBy (registered chain : List Strategy) : Prop where
  sorted : chain = sort registered
  ranked : Ranked priority registered chain
  decides : ∀ (slots : Slots) (expr : Expr) (metadata : Option Metadata)
    (outcome : Except CompileError Callee × List String),
    compile slots expr metadata chain = outcome ↔ Chosen slots expr metadata registered outcome

theorem goesBy_sort (registered : List Strategy) : GoesBy registered (sort registered) where
  sorted := rfl
  ranked := ranked_ranking priority registered
  decides _ _ _ _ := ⟨fun same => same ▸ chosen_compile registered, Chosen.compile_eq⟩

end Strategy

/-- Registering one by one and registering all at once make the same chain, from any initial
builders and from the standard ones. Two orders of registration make the same chain exactly when
they agree on each priority. -/
theorem registrations_decide :
    (∀ initial added : List Builder,
      Builder.GoesBy (initial ++ added) (added.foldl Builder.add (Builder.sort initial))) ∧
    (∀ added : List Builder,
      Builder.GoesBy (Builder.named.map Prod.snd ++ added)
        (added.foldl Builder.add Builder.standard)) ∧
    (∀ (first : Option Strategy) (added : List Strategy),
      Strategy.GoesBy (first.toList ++ added) (added.foldl Strategy.add first.toList)) ∧
    (∀ registered other : List Builder, Builder.sort registered = Builder.sort other ↔
      ∀ level, atLevel Builder.priority level registered = atLevel Builder.priority level other) ∧
    ∀ registered other : List Strategy, Strategy.sort registered = Strategy.sort other ↔
      ∀ level,
        atLevel Strategy.priority level registered = atLevel Strategy.priority level other := by
  refine ⟨fun initial added => ?_, fun added => ?_, fun first added => ?_,
    fun _ _ => ranking_eq_iff, fun _ _ => ranking_eq_iff⟩
  · rw [Builder.foldl_add]
    exact Builder.goesBy_sort _
  · rw [Builder.standard, Builder.foldl_add]
    exact Builder.goesBy_sort _
  · rw [Strategy.foldl_add]
    exact Strategy.goesBy_sort _

/-- A body under lambdas, the outermost first. -/
def Expr.underLambdas (body : Expr) (lambdas : List (NodeId × List String)) : Expr :=
  lambdas.foldr (fun (id, parameters) inner => .mk id (.lambda parameters inner)) body

def Fragment.underLambdas (body : Fragment) (lambdas : List (NodeId × List String)) : Fragment :=
  lambdas.foldr (fun (_, parameters) inner =>
    { tag := .function, code := .lambda parameters.length inner.code }) body

namespace Builder

open Build

/-- Builds expressions one after the other, each in the context that the one before it left, also
when that one failed. -/
def attempts (chain : List Builder) :
    List Expr → BuildContext → List (Except CompileError Fragment) × BuildContext
  | [], context => ([], context)
  | expr :: rest, context =>
      let built := build chain expr context
      let (results, left) := attempts chain rest built.context
      (built.result :: results, left)

theorem build_standard_context (expr : Expr) (context : BuildContext) :
    (build standard expr context).context = context := by
  rw [build_standard, settled]

theorem attempts_standard (exprs : List Expr) (context : BuildContext) :
    attempts standard exprs context =
      (exprs.map fun expr => (build standard expr context).result, context) := by
  induction exprs with
  | nil => rfl
  | cons expr rest ih => simp only [attempts, build_standard_context, ih, List.map_cons]

/-- A body is built with the names of all lambdas around it in scope, and its failure is theirs. -/
theorem plan_underLambdas {fallback : Expr → Option Fragment} (body : Expr)
    (lambdas : List (NodeId × List String)) (names : List String) :
    plan fallback (body.underLambdas lambdas) names =
      (·.underLambdas lambdas) <$> plan fallback body (names ++ lambdas.flatMap Prod.snd) := by
  induction lambdas generalizing names with
  | nil =>
      rw [List.flatMap_nil, List.append_nil]
      exact (id_map _).symm
  | cons lambda lambdas ih =>
      obtain ⟨id, parameters⟩ := lambda
      rw [List.flatMap_cons, ← List.append_assoc]
      refine (plan_lambda parameters (body.underLambdas lambdas)).trans ?_
      rw [ih]
      cases plan fallback body (names ++ parameters ++ lambdas.flatMap Prod.snd) <;> rfl

theorem build_underLambdas (body : Expr) (lambdas : List (NodeId × List String))
    (context : BuildContext) :
    (build standard (body.underLambdas lambdas) context).result =
      (·.underLambdas lambdas) <$>
        (build standard body (context.push (lambdas.flatMap Prod.snd))).result := by
  rw [build_standard, build_standard]
  exact plan_underLambdas body lambdas context.parameters

theorem build_restores (context : BuildContext) :
    (∀ expr : Expr, (build standard expr context).context = context) ∧
    (∀ exprs : List Expr, attempts standard exprs context =
      (exprs.map fun expr => (build standard expr context).result, context)) ∧
    ∀ (lambdas : List (NodeId × List String)) (body : Expr),
      (build standard (body.underLambdas lambdas) context).result =
        (·.underLambdas lambdas) <$>
          (build standard body (context.push (lambdas.flatMap Prod.snd))).result :=
  ⟨fun expr => build_standard_context expr context, fun exprs => attempts_standard exprs context,
    fun lambdas body => build_underLambdas body lambdas context⟩

end Builder

end Tether
