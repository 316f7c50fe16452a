import Mathlib.Data.List.Forall2
import Tether.Proofs.Subtrees

set_option autoImplicit false

/- Places in a tree, and trees that differ at some places only. A record says, for every place, what
was offered there and what came back for it. Where another node came back it takes the place of
all that stood there; everything else keeps its form, and whatever nothing was replaced in is the
same part as before. -/
namespace Tether

namespace Node

variable {α : Type}

/-- A node without its children: how many there are, and where, is left. -/
def shape (node : Node α) : Node Unit :=
  node.map fun _ => ()

theorem length_children_of_shape {β : Type} {node : Node α} {other : Node β}
    (same : node.shape = other.shape) : node.children.length = other.children.length := by
  have units := congrArg (fun shape => shape.children.length) same
  simpa only [shape, children_map, List.length_map] using units

theorem length_overlay (items replacements : List α) :
    (overlay items replacements).length = items.length := by
  rw [overlay, List.length_append, List.length_take, List.length_drop]
  omega

theorem overlay_eq {items replacements : List α} (count : replacements.length = items.length) :
    overlay items replacements = replacements := by
  rw [overlay, List.take_of_length_le (Nat.le_of_eq count),
    List.drop_of_length_le (Nat.le_of_eq count.symm), List.append_nil]

/-- A node made anew differs in its children only. -/
theorem shape_withChildren? {node rebuilt : Node α} {children : List α}
    (made : node.withChildren? children = some rebuilt) : rebuilt.shape = node.shape := by
  cases node with
  | constant | parameter | placeholder => cases made
  | member target | index target | call target =>
      cases made
      cases target <;> simp [shape, map, List.map_const', length_overlay]
  | unary | lambda | binary | condition =>
      cases made
      rfl

/-- A node made anew has the children it is given. -/
theorem children_withChildren? {node rebuilt : Node α} {children : List α}
    (made : node.withChildren? children = some rebuilt)
    (count : children.length = node.children.length) : rebuilt.children = children := by
  cases node with
  | constant | parameter | placeholder => cases made
  | member target =>
      cases made
      cases target with
      | none => exact (List.eq_nil_of_length_eq_zero count).symm
      | some target =>
          obtain ⟨child, rfl⟩ := List.length_eq_one_iff.mp count
          rfl
  | index target arguments | call target _ arguments =>
      cases made
      cases target with
      | none => exact overlay_eq count
      | some target =>
          cases children with
          | nil => cases count
          | cons child children => exact congrArg (child :: ·) (overlay_eq (Nat.succ.inj count))
  | unary | lambda =>
      cases made
      obtain ⟨child, rfl⟩ := List.length_eq_one_iff.mp count
      rfl
  | binary =>
      cases made
      obtain ⟨first, second, rfl⟩ := List.length_eq_two.mp count
      rfl
  | condition =>
      cases made
      obtain ⟨first, second, third, rfl⟩ := List.length_eq_three.mp count
      rfl

/-- A node over its own children is itself, unless it never has any. -/
theorem withChildren?_children {node rebuilt : Node α} {children : List α}
    (made : node.withChildren? children = some rebuilt) :
    node.withChildren? node.children = some node := by
  cases node with
  | constant | parameter | placeholder => cases made
  | member target | index target | call target =>
      cases target <;> simp [withChildren?, Node.children, overlay_eq]
  | unary | lambda | binary | condition => rfl

end Node

/-- Where a node stands in a tree: which child to take at each step from the root. -/
abbrev Place := List Nat

/-- Children first: a place comes before those above it and those to its right. -/
def Place.Earlier : Place → Place → Prop
  | [], _ => False
  | _ :: _, [] => True
  | step :: place, other :: more => step < other ∨ step = other ∧ Earlier place more

namespace Expr

/-- What stands at a place of a tree. -/
def part? : Expr → Place → Option Expr
  | expr, [] => some expr
  | expr, step :: place => expr.children[step]?.bind fun child => child.part? place

theorem part?_append (expr : Expr) (place more : Place) :
    expr.part? (place ++ more) = (expr.part? place).bind fun part => part.part? more := by
  induction place generalizing expr with
  | nil => rfl
  | cons step place ih =>
      simp only [List.cons_append, part?, Option.bind_assoc]
      exact congrArg _ (funext fun child => ih child)

theorem part?_singleton (expr : Expr) (step : Nat) : expr.part? [step] = expr.children[step]? :=
  Option.bind_fun_some _

theorem part?_cons {expr part : Expr} {step : Nat} {place : Place} :
    expr.part? (step :: place) = some part ↔
      ∃ child, expr.children[step]? = some child ∧ child.part? place = some part :=
  Option.bind_eq_some_iff

/-- The places below a node, from left to right, given those of each child. -/
def placesBelow (children : List (List Place)) : List Place :=
  children.zipIdx.flatMap fun child => child.1.map (child.2 :: ·)

/-- The places of a tree, parents before children. -/
def places : Expr → List Place :=
  para fun _ node => [] :: placesBelow (node.children.map Prod.snd)

/-- The places of a tree, children before parents. -/
def placesAfter : Expr → List Place :=
  para fun _ node => placesBelow (node.children.map Prod.snd) ++ [[]]

theorem places_mk (id : NodeId) (node : Node Expr) :
    places (.mk id node) = [] :: placesBelow (node.children.map places) := by
  rw [places, para_mk, Node.children_map, List.map_map]
  rfl

theorem placesAfter_mk (id : NodeId) (node : Node Expr) :
    placesAfter (.mk id node) = placesBelow (node.children.map placesAfter) ++ [[]] := by
  rw [placesAfter, para_mk, Node.children_map, List.map_map]
  rfl

theorem placesBelow_map (exprs : List Expr) (list : Expr → List Place) :
    placesBelow (exprs.map list) =
      exprs.zipIdx.flatMap fun child => (list child.1).map (child.2 :: ·) := by
  rw [placesBelow, List.zipIdx_map, List.flatMap_map]
  rfl

theorem mem_placesBelow {exprs : List Expr} {list : Expr → List Place} {place : Place} :
    place ∈ placesBelow (exprs.map list) ↔
      ∃ step child deeper, exprs[step]? = some child ∧ deeper ∈ list child ∧
        step :: deeper = place := by
  simp only [placesBelow_map, List.mem_flatMap, Prod.exists, List.mem_zipIdx_iff_getElem?,
    List.mem_map]
  constructor
  · rintro ⟨child, step, here, deeper, found, rfl⟩
    exact ⟨step, child, deeper, here, found, rfl⟩
  · rintro ⟨step, child, deeper, here, found, rfl⟩
    exact ⟨child, step, here, deeper, found, rfl⟩

theorem pairwise_placesBelow {order : Place → Place → Prop} {exprs : List Expr}
    {list : Expr → List Place}
    (right : ∀ {step other} place more, step < other → order (step :: place) (other :: more))
    (down : ∀ {step place more}, order place more → order (step :: place) (step :: more))
    (each : ∀ expr ∈ exprs, (list expr).Pairwise order) :
    (placesBelow (exprs.map list)).Pairwise order := by
  rw [placesBelow_map, List.pairwise_flatMap]
  constructor
  · intro child found
    have below := each child.1 (List.fst_mem_of_mem_zipIdx found)
    exact below.map _ fun _ _ => down
  · have steps : (exprs.zipIdx.map Prod.snd).Pairwise (· < ·) := by
      rw [List.zipIdx_map_snd]
      exact List.pairwise_lt_range'
    refine (List.pairwise_map.mp steps).imp fun before => ?_
    simp only [List.mem_map]
    rintro _ ⟨place, -, rfl⟩ _ ⟨more, -, rfl⟩
    exact right place more before

/-- Listing the places of every child lists all places but the root. -/
theorem cons_mem_placesBelow (expr : Expr) {list : Expr → List Place}
    (each : ∀ child ∈ expr.children, ∀ place, place ∈ list child ↔ (child.part? place).isSome)
    (step : Nat) (place : Place) :
    step :: place ∈ placesBelow (expr.children.map list) ↔ (expr.part? (step :: place)).isSome := by
  simp only [Option.isSome_iff_exists] at each ⊢
  rw [mem_placesBelow]
  constructor
  · rintro ⟨_, child, _, here, listed, ⟨⟩⟩
    obtain ⟨part, found⟩ := (each child (List.mem_of_getElem? here) place).mp listed
    exact ⟨part, part?_cons.mpr ⟨child, here, found⟩⟩
  · rintro ⟨part, found⟩
    obtain ⟨child, here, found⟩ := part?_cons.mp found
    have listed := (each child (List.mem_of_getElem? here) place).mpr ⟨part, found⟩
    exact ⟨step, child, place, here, listed, rfl⟩

theorem mem_places (expr : Expr) (place : Place) :
    place ∈ expr.places ↔ (expr.part? place).isSome := by
  induction expr using children_induct generalizing place with
  | step id node ih =>
      rw [places_mk, List.mem_cons]
      cases place with
      | nil => simp [part?]
      | cons step place =>
          rw [← cons_mem_placesBelow (.mk id node) ih]
          simp [children, Expr.node]

theorem mem_placesAfter (expr : Expr) (place : Place) :
    place ∈ expr.placesAfter ↔ (expr.part? place).isSome := by
  induction expr using children_induct generalizing place with
  | step id node ih =>
      rw [placesAfter_mk, List.mem_append, List.mem_singleton]
      cases place with
      | nil => simp [part?]
      | cons step place =>
          rw [← cons_mem_placesBelow (.mk id node) ih]
          simp [children, Expr.node]

theorem places_sorted (expr : Expr) : expr.places.Pairwise (· < ·) := by
  induction expr using children_induct with
  | step id node ih =>
      rw [places_mk, List.pairwise_cons]
      refine ⟨fun place found => ?_,
        pairwise_placesBelow (fun _ _ => List.Lex.rel) List.Lex.cons ih⟩
      obtain ⟨step, _, deeper, -, -, rfl⟩ := mem_placesBelow.mp found
      exact List.Lex.nil

theorem placesAfter_sorted (expr : Expr) : expr.placesAfter.Pairwise Place.Earlier := by
  induction expr using children_induct with
  | step id node ih =>
      have below : (placesBelow (node.children.map placesAfter)).Pairwise Place.Earlier :=
        pairwise_placesBelow (fun _ _ => .inl) (fun before => .inr ⟨rfl, before⟩) ih
      rw [placesAfter_mk, List.pairwise_append]
      refine ⟨below, List.pairwise_singleton _ _, fun place found root isRoot => ?_⟩
      obtain ⟨step, _, deeper, -, -, rfl⟩ := mem_placesBelow.mp found
      rw [List.mem_singleton.mp isRoot]
      trivial
end Expr

theorem getElem?_of_forall₂ {α β : Type} {related : α → β → Prop} {items : List α}
    {others : List β} (each : List.Forall₂ related items others) {step : Nat} {item : α}
    (found : items[step]? = some item) :
    ∃ other, others[step]? = some other ∧ related item other := by
  induction each generalizing step with
  | nil => cases found
  | cons first rest ih =>
      cases step with
      | zero =>
          cases found
          exact ⟨_, rfl, first⟩
      | succ step => exact ih found

/-- What was offered at every place of a tree, and what came back. -/
abbrev Record := Place → Expr × Expr

namespace Record

/-- Whether another node came back than was offered. -/
def replaces (record : Record) (place : Place) : Bool :=
  (record place).2.id != (record place).1.id

/-- Whether nothing above a place was replaced. -/
def reaches (record : Record) (place : Place) : Bool :=
  (List.range place.length).all fun count => !record.replaces (place.take count)

def below (record : Record) (step : Nat) : Record :=
  fun place => record (step :: place)

/-- A record for a node, from those for its children. -/
def ofChildren (here : Expr × Expr) (children : List Record) : Record
  | [] => here
  | step :: place => children[step]?.elim here fun record => record place

theorem reaches_cons (record : Record) (step : Nat) (place : Place) :
    record.reaches (step :: place) =
      (!record.replaces [] && (record.below step).reaches place) := by
  rw [reaches, List.length_cons, List.range_succ_eq_map, List.all_cons, List.all_map]
  rfl

theorem below_ofChildren {here : Expr × Expr} {children : List Record} {step : Nat}
    {record : Record} (found : children[step]? = some record) :
    (ofChildren here children).below step = record := by
  funext place
  simp only [below, ofChildren, found, Option.elim_some]

theorem replaces_ofChildren (offered : Expr) (children : List Record) :
    (ofChildren (offered, offered) children).replaces [] = false := by
  simp [replaces, ofChildren]

/-- The offers that a record makes below a node are those of the children's records in turn. -/
theorem flatMap_ofChildren {α : Type} (list : Record → Expr → List α) (here : Expr × Expr)
    {exprs : List Expr} {records : List Record} (count : records.length = exprs.length) :
    (exprs.zipIdx.flatMap fun child => list ((ofChildren here records).below child.2) child.1) =
      (List.zipWith list records exprs).flatten := by
  -- The records before `records` are those of the children that the induction has left behind.
  have general (earlier : List Record) : ((exprs.zipIdx earlier.length).flatMap fun child =>
      list ((ofChildren here (earlier ++ records)).below child.2) child.1) =
        (List.zipWith list records exprs).flatten := by
    induction exprs generalizing records earlier with
    | nil => rw [List.zipIdx_nil, List.flatMap_nil, List.zipWith_nil_right, List.flatten_nil]
    | cons expr exprs ih =>
        cases records with
        | nil => cases count
        | cons record records =>
            have first :
                (ofChildren here (earlier ++ record :: records)).below earlier.length = record :=
              below_ofChildren (by simp)
            have rest := ih (Nat.succ.inj count) (earlier ++ [record])
            rw [List.length_append, List.length_singleton, List.append_assoc,
              List.singleton_append] at rest
            rw [List.zipIdx_cons, List.flatMap_cons, List.zipWith_cons_cons, List.flatten_cons,
              first, rest]
  exact general []

/-- The offers of a traversal, parents first. Nothing below a node that is replaced is offered. -/
def journal (record : Record) (expr : Expr) : List (Expr × Expr) :=
  (expr.places.filter record.reaches).map record

/-- The offers of a traversal, children first. -/
def journalAfter (record : Record) (expr : Expr) : List (Expr × Expr) :=
  expr.placesAfter.map record

section Journals

variable {expr : Expr} {records : List Record}

theorem journal_replaced {record : Record} (other : record.replaces []) (expr : Expr) :
    record.journal expr = [record []] := by
  obtain ⟨id, node⟩ := expr
  have unreached : ∀ place ∈ Expr.placesBelow (node.children.map Expr.places),
      ¬ record.reaches place := by
    intro place found
    rw [Expr.placesBelow_map, List.mem_flatMap] at found
    obtain ⟨child, -, found⟩ := found
    obtain ⟨deeper, -, rfl⟩ := List.mem_map.mp found
    rw [reaches_cons, other]
    simp
  rw [journal, Expr.places_mk, List.filter_cons_of_pos rfl, List.filter_eq_nil_iff.mpr unreached]
  rfl

theorem journal_ofChildren (offered : Expr) (count : records.length = expr.children.length) :
    (ofChildren (offered, offered) records).journal expr =
      (offered, offered) :: (List.zipWith journal records expr.children).flatten := by
  obtain ⟨id, node⟩ := expr
  have reach (step : Nat) : (ofChildren (offered, offered) records).reaches ∘ (step :: ·) =
      ((ofChildren (offered, offered) records).below step).reaches := by
    funext place
    rw [Function.comp_apply, reaches_cons, replaces_ofChildren]
    rfl
  rw [← flatMap_ofChildren journal (offered, offered) count, journal, Expr.places_mk,
    List.filter_cons_of_pos rfl, List.map_cons, Expr.placesBelow_map, List.filter_flatMap,
    List.map_flatMap]
  refine congrArg ((offered, offered) :: ·) (List.flatMap_congr fun child _ => ?_)
  rw [List.filter_map, List.map_map, reach]
  rfl

theorem journalAfter_ofChildren (here : Expr × Expr)
    (count : records.length = expr.children.length) :
    (ofChildren here records).journalAfter expr =
      (List.zipWith journalAfter records expr.children).flatten ++ [here] := by
  obtain ⟨id, node⟩ := expr
  rw [← flatMap_ofChildren journalAfter here count, journalAfter, Expr.placesAfter_mk,
    List.map_append, Expr.placesBelow_map, List.map_flatMap]
  refine congrArg (· ++ [here]) (List.flatMap_congr fun child _ => ?_)
  rw [List.map_map]
  rfl

end Journals

/-- Every part of the tree is offered as it stands. -/
def Offers (record : Record) (expr : Expr) : Prop :=
  ∀ place part, expr.part? place = some part → (record place).1 = part

/-- What came back for the children of a place. -/
def answers (record : Record) (place : Place) (count : Nat) : List Expr :=
  (List.range count).map fun step => (record (place ++ [step])).2

end Record

/-- A node over new children: the node itself if they are its own. -/
structure Remade (part : Expr) (results : List Expr) (made : Expr) : Prop where
  shape : made.node.shape = part.node.shape
  children : made.children = results
  same (unchanged : results = part.children) : made = part

namespace Record

/-- Every part of the tree is offered over what came back for its children. -/
def OffersRemade (record : Record) (expr : Expr) : Prop :=
  ∀ place part, expr.part? place = some part →
    Remade part (record.answers place part.children.length) (record place).1

/-- Everything is offered as it stands, and given back. -/
def idle (expr : Expr) : Record :=
  fun place => ((expr.part? place).getD expr, (expr.part? place).getD expr)

theorem idle_offers (expr : Expr) : (idle expr).Offers expr := by
  intro place part found
  rw [idle, found]
  rfl

theorem idle_offersRemade (expr : Expr) : (idle expr).OffersRemade expr := by
  intro place part found
  have own : (idle expr).answers place part.children.length = part.children := by
    refine List.ext_getElem? fun step => ?_
    rw [answers, List.getElem?_map]
    by_cases inside : step < part.children.length
    · rw [List.getElem?_range inside, Option.map_some, idle, Expr.part?_append, found,
        Option.bind_some, Expr.part?_singleton, List.getElem?_eq_getElem inside]
      rfl
    · rw [List.getElem?_eq_none (by simpa using inside),
        List.getElem?_eq_none (Nat.le_of_not_lt inside)]
      rfl
  rw [own, idle, found]
  exact ⟨rfl, rfl, fun _ => rfl⟩

section OfChildren

variable {expr offered answer : Expr} {records : List Record}

theorem Offers.ofChildren (each : List.Forall₂ (fun child record => record.Offers child)
    expr.children records) : (Record.ofChildren (expr, answer) records).Offers expr := by
  intro place part found
  cases place with
  | nil =>
      cases found
      rfl
  | cons step place =>
      obtain ⟨child, here, found⟩ := Expr.part?_cons.mp found
      obtain ⟨record, there, offers⟩ := getElem?_of_forall₂ each here
      simpa only [Record.ofChildren, there, Option.elim_some] using offers place part found

theorem OffersRemade.ofChildren (each : List.Forall₂ (fun child record => record.OffersRemade child)
    expr.children records)
    (remade : Remade expr (records.map fun record => (record []).2) offered) :
    (Record.ofChildren (offered, answer) records).OffersRemade expr := by
  intro place part found
  cases place with
  | nil =>
      cases found
      have own : (Record.ofChildren (offered, answer) records).answers [] expr.children.length =
          records.map fun record => (record []).2 := by
        refine List.ext_getElem? fun step => ?_
        rw [answers, List.getElem?_map, List.getElem?_map, each.length_eq]
        by_cases inside : step < records.length
        · rw [List.getElem?_range inside, List.getElem?_eq_getElem inside]
          simp [Record.ofChildren, inside]
        · rw [List.getElem?_eq_none (Nat.le_of_not_lt inside),
            List.getElem?_eq_none (by simpa using inside)]
          rfl
      exact own.symm ▸ remade
  | cons step place =>
      obtain ⟨child, here, found⟩ := Expr.part?_cons.mp found
      obtain ⟨record, there, offers⟩ := getElem?_of_forall₂ each here
      simpa only [answers, List.cons_append, Record.ofChildren, there, Option.elim_some] using
        offers place part found

end OfChildren

end Record

/-- A tree in which everything that a record replaces is replaced, and nothing else. -/
structure Substituted (record : Record) (expr result : Expr) : Prop where
  replaced {place : Place} {part : Expr} (found : expr.part? place = some part)
    (reached : record.reaches place) (other : record.replaces place) :
    result.part? place = some (record place).2
  kept {place : Place} {part : Expr} (found : expr.part? place = some part)
    (reached : record.reaches place) (own : ¬ record.replaces place) :
    ∃ made, result.part? place = some made ∧ made.node.shape = part.node.shape
  same {place : Place} {part : Expr} (found : expr.part? place = some part)
    (reached : record.reaches place)
    (unchanged : ∀ deeper inner, part.part? deeper = some inner →
      record.reaches (place ++ deeper) → ¬ record.replaces (place ++ deeper)) :
    result.part? place = some part

/-- Nothing that was reached was replaced. -/
def Record.KeepsAll (record : Record) (expr : Expr) : Prop :=
  ∀ place part, expr.part? place = some part → record.reaches place → ¬ record.replaces place

namespace Substituted

variable {record : Record} {expr result : Expr}

/-- Nothing below a node that was replaced is reached. -/
theorem of_replaced (other : record.replaces []) (isAnswer : result = (record []).2) :
    Substituted record expr result := by
  have unreached {step : Nat} {place : Place} : ¬ record.reaches (step :: place) := by
    rw [Record.reaches_cons, other]
    simp
  constructor
  · intro place part found reached replaced
    cases place with
    | nil => rw [isAnswer]; rfl
    | cons step place => exact absurd reached unreached
  · intro place part found reached own
    cases place with
    | nil => exact absurd other own
    | cons step place => exact absurd reached unreached
  · intro place part found reached unchanged
    cases place with
    | nil => exact absurd other (unchanged [] part rfl reached)
    | cons step place => exact absurd reached unreached

/-- Substitution in a node that is kept goes on in its children. -/
theorem of_children (own : ¬ record.replaces [])
    (shape : result.node.shape = expr.node.shape)
    (each : ∀ step child, expr.children[step]? = some child →
      ∃ made, result.children[step]? = some made ∧ Substituted (record.below step) child made)
    (same : result.children = expr.children → result = expr) : Substituted record expr result := by
  have reach {step : Nat} {place : Place} : record.reaches (step :: place) ↔
      (record.below step).reaches place := by
    rw [Record.reaches_cons, Bool.eq_false_iff.mpr own]
    rfl
  constructor
  · intro place part found reached other
    cases place with
    | nil => exact absurd other own
    | cons step place =>
        obtain ⟨child, here, found⟩ := Expr.part?_cons.mp found
        obtain ⟨made, there, below⟩ := each step child here
        exact Expr.part?_cons.mpr ⟨made, there, below.replaced found (reach.mp reached) other⟩
  · intro place part found reached own
    cases place with
    | nil =>
        cases found
        exact ⟨result, rfl, shape⟩
    | cons step place =>
        obtain ⟨child, here, found⟩ := Expr.part?_cons.mp found
        obtain ⟨made, there, below⟩ := each step child here
        obtain ⟨inner, isInner, alike⟩ := below.kept found (reach.mp reached) own
        exact ⟨inner, Expr.part?_cons.mpr ⟨made, there, isInner⟩, alike⟩
  · intro place part found reached unchanged
    cases place with
    | nil =>
        cases found
        have count := Node.length_children_of_shape shape
        have children : result.children = expr.children := by
          refine List.ext_getElem? fun step => ?_
          cases here : expr.children[step]? with
          | none =>
              rw [List.getElem?_eq_none_iff] at here ⊢
              exact Nat.le_trans (Nat.le_of_eq count) here
          | some child =>
              obtain ⟨made, there, below⟩ := each step child here
              have isChild : made.part? [] = some child :=
                below.same rfl rfl fun deeper inner found reached =>
                  unchanged (step :: deeper) inner (Expr.part?_cons.mpr ⟨child, here, found⟩)
                    (reach.mpr reached)
              exact there.trans isChild
        rw [same children]
        rfl
    | cons step place =>
        obtain ⟨child, here, found⟩ := Expr.part?_cons.mp found
        obtain ⟨made, there, below⟩ := each step child here
        refine Expr.part?_cons.mpr ⟨made, there, below.same found (reach.mp reached) ?_⟩
        exact fun deeper inner found reached => unchanged deeper inner found (reach.mpr reached)

theorem eq_of_keepsAll (substituted : Substituted record expr result)
    (keepsAll : record.KeepsAll expr) : result = expr := by
  have whole : result.part? [] = some expr := substituted.same rfl rfl keepsAll
  exact Option.some.inj whole

end Substituted

end Tether
