import Strix.Policies

/-!
# Conditions that cannot be read

A condition block holds operators, an operator holds keys and values.  An operator
that is unknown, that holds no keys and values, or that is given a value it cannot
read makes the block faulty.  A faulty block should not let an allowance through,
nor a denial fall away.

* `evaluateCondition_iff`: what the evaluation does, entry by entry;
* `holds_of_wellFormed`: a well-formed block holds exactly when all of its entries
  do;
* `conditionsFailClosed_iff`: for which statements faulty blocks err on the safe
  side.
-/

namespace Strix

/-- The operators that conditions know. -/
inductive ConditionOperator
  | stringEquals
  | stringNotEquals
  | stringLike
  | stringNotLike
  | ipAddress
  | notIpAddress
  | bool
  | numericEquals
  | numericLessThan
  | numericGreaterThan
  | null
  deriving DecidableEq, Repr

/-- A text that stands for a network or for an address. -/
def isCidr (text : String) : Bool :=
  match splitOnce '/' text with
  | none => (IpAddr.parse text).isSome
  | some (network, prefixLen) =>
    match IpAddr.parse network, parseUnsigned 8 prefixLen with
    | some (.v4 _), some len => len ≤ 32
    | some (.v6 _), some len => len ≤ 128
    | _, _ => false

/-- The text of a truth value: a text itself, or `true` and `false`. -/
def Value.boolText (value : Value) : Option String :=
  value.asStr.or (value.asBool.map toString)

/-- The number that a value is or spells. -/
def Value.numeric (value : Value) : Option Float :=
  (value.asStr.bind parseF64).or value.asF64

/-- The value is `true`, or the text of it. -/
def Value.saysTrue (value : Value) : Bool :=
  value.asStr == some "true" || value.asBool == some true

namespace ConditionOperator

/-- The operator of a name. -/
def fromName : String → Option ConditionOperator
  | "StringEquals" => some stringEquals
  | "StringNotEquals" => some stringNotEquals
  | "StringLike" => some stringLike
  | "StringNotLike" => some stringNotLike
  | "IpAddress" => some ipAddress
  | "NotIpAddress" => some notIpAddress
  | "Bool" => some bool
  | "NumericEquals" => some numericEquals
  | "NumericLessThan" => some numericLessThan
  | "NumericGreaterThan" => some numericGreaterThan
  | "Null" => some null
  | _ => none

def name : ConditionOperator → String
  | stringEquals => "StringEquals"
  | stringNotEquals => "StringNotEquals"
  | stringLike => "StringLike"
  | stringNotLike => "StringNotLike"
  | ipAddress => "IpAddress"
  | notIpAddress => "NotIpAddress"
  | bool => "Bool"
  | numericEquals => "NumericEquals"
  | numericLessThan => "NumericLessThan"
  | numericGreaterThan => "NumericGreaterThan"
  | null => "Null"

/-- The value has a shape that the operator takes: a string, and for truth values and
numbers also these themselves. -/
def takes : ConditionOperator → Value → Bool
  | bool, value | null, value => value.asStr.isSome || value.asBool.isSome
  | numericEquals, value | numericLessThan, value | numericGreaterThan, value =>
    value.asStr.isSome || value.asF64.isSome
  | _, value => value.asStr.isSome

/-- The operator can read the value: it has a shape that the operator takes, and a
string spells what the operator compares. -/
def reads : ConditionOperator → Value → Bool
  | ipAddress, value | notIpAddress, value => value.asStr.any isCidr
  | bool, value | null, value => value.boolText.any fun text => text == "true" || text == "false"
  | numericEquals, value | numericLessThan, value | numericGreaterThan, value =>
    value.numeric.isSome
  | _, value => value.asStr.isSome

/-- **An entry holds** in a context. -/
def Holds (context : ConditionContext) (key : String) (value : Value) : ConditionOperator → Prop
  | stringEquals => ∃ text, value.asStr = some text ∧ context.get key = some text
  | stringNotEquals => ∃ text, value.asStr = some text ∧ context.get key ≠ some text
  | stringLike => ∃ pattern actual, value.asStr = some pattern ∧
      context.get key = some actual ∧ matchesWildcard pattern actual = true
  | stringNotLike => ∃ pattern, value.asStr = some pattern ∧
      ¬∃ actual, context.get key = some actual ∧ matchesWildcard pattern actual = true
  | ipAddress => ∃ cidr ip, value.asStr = some cidr ∧ context.sourceIp = some ip ∧
      ipMatchesCidr ip cidr = true
  | notIpAddress => ∃ cidr, value.asStr = some cidr ∧
      ¬∃ ip, context.sourceIp = some ip ∧ ipMatchesCidr ip cidr = true
  | bool => ∃ text, value.boolText = some text ∧ context.get key = some text
  | numericEquals => ∃ actual expected, (context.get key).bind parseF64 = some actual ∧
      value.numeric = some expected ∧ (actual - expected).abs < f64Epsilon
  | numericLessThan => ∃ actual expected, (context.get key).bind parseF64 = some actual ∧
      value.numeric = some expected ∧ actual < expected
  | numericGreaterThan => ∃ actual expected, (context.get key).bind parseF64 = some actual ∧
      value.numeric = some expected ∧ actual > expected
  | null => context.get key = none ↔ value.saysTrue = true

/-- With a value of a shape that it does not take, the operator answers yes. -/
def Overlooks (context : ConditionContext) (key : String) : ConditionOperator → Prop
  | stringEquals => context.get key = none
  | stringNotEquals => context.get key ≠ none
  | stringNotLike => True
  | notIpAddress => True
  | null => context.get key ≠ none
  | _ => False

theorem name_of_fromName {operator : String} {op : ConditionOperator}
    (h : fromName operator = some op) : operator = op.name := by
  unfold fromName at h
  split at h
  all_goals
    cases h
    try rfl

/-- An unknown operator answers no. -/
theorem operatorMatches_unknown {operator : String} (h : fromName operator = none)
    (context : ConditionContext) (actual : Option String) (value : Value) :
    operatorMatches operator context actual value = false := by
  unfold operatorMatches
  split
  case h_12 => rfl
  all_goals cases h

/-- The two numbers that are compared. -/
theorem numericOperands_eq (actual : Option String) (value : Value) :
    numericOperands actual value =
      (actual.bind parseF64).bind fun a => value.numeric.map fun e => (a, e) := by
  unfold numericOperands Value.numeric
  cases actual.bind parseF64 with
  | none => rfl
  | some a => cases (value.asStr.bind parseF64).or value.asF64 <;> rfl

/-- **A value of a shape that the operator takes** is compared as it should be. -/
theorem operatorMatches_takes {op : ConditionOperator} {context : ConditionContext}
    {key : String} {value : Value} (h : op.takes value = true) :
    operatorMatches op.name context (context.get key) value = true ↔
      op.Holds context key value := by
  cases op with
  | stringEquals =>
      obtain ⟨text, htext⟩ := Option.isSome_iff_exists.mp h
      simp [name, operatorMatches, Holds, htext]
  | stringNotEquals =>
      obtain ⟨text, htext⟩ := Option.isSome_iff_exists.mp h
      simp [name, operatorMatches, Holds, htext]
  | stringLike =>
      obtain ⟨text, htext⟩ := Option.isSome_iff_exists.mp h
      cases hactual : context.get key with
      | none => simp [name, operatorMatches, Holds, htext, hactual]
      | some actual => simp [name, operatorMatches, Holds, htext, hactual]
  | stringNotLike =>
      obtain ⟨text, htext⟩ := Option.isSome_iff_exists.mp h
      cases hactual : context.get key with
      | none => simp [name, operatorMatches, Holds, htext, hactual]
      | some actual => simp [name, operatorMatches, Holds, htext, hactual]
  | ipAddress =>
      obtain ⟨text, htext⟩ := Option.isSome_iff_exists.mp h
      cases hip : context.sourceIp with
      | none => simp [name, operatorMatches, Holds, htext, hip]
      | some ip => simp [name, operatorMatches, Holds, htext, hip]
  | notIpAddress =>
      obtain ⟨text, htext⟩ := Option.isSome_iff_exists.mp h
      cases hip : context.sourceIp with
      | none => simp [name, operatorMatches, Holds, htext, hip]
      | some ip => simp [name, operatorMatches, Holds, htext, hip]
  | bool =>
      cases htext : value.asStr with
      | some text =>
          simp [name, operatorMatches, Holds, Value.boolText, htext]
      | none =>
          cases hbool : value.asBool with
          | none => simp [takes, htext, hbool] at h
          | some b => simp [name, operatorMatches, Holds, Value.boolText, htext, hbool]
  | numericEquals =>
      cases hactual : (context.get key).bind parseF64 with
      | none => simp [name, operatorMatches, Holds, numericOperands_eq, hactual]
      | some a =>
          cases hnumber : value.numeric <;>
            simp [name, operatorMatches, Holds, numericOperands_eq, hactual, hnumber]
  | numericLessThan =>
      cases hactual : (context.get key).bind parseF64 with
      | none => simp [name, operatorMatches, Holds, numericOperands_eq, hactual]
      | some a =>
          cases hnumber : value.numeric <;>
            simp [name, operatorMatches, Holds, numericOperands_eq, hactual, hnumber]
  | numericGreaterThan =>
      cases hactual : (context.get key).bind parseF64 with
      | none => simp [name, operatorMatches, Holds, numericOperands_eq, hactual]
      | some a =>
          cases hnumber : value.numeric <;>
            simp [name, operatorMatches, Holds, numericOperands_eq, hactual, hnumber]
  | null =>
      cases hactual : context.get key with
      | none => simp [name, operatorMatches, Holds, Value.saysTrue, hactual]
      | some actual => simp [name, operatorMatches, Holds, Value.saysTrue, hactual]

/-- A value of another shape. -/
theorem operatorMatches_not_takes {op : ConditionOperator} {context : ConditionContext}
    {key : String} {value : Value} (h : op.takes value = false) :
    operatorMatches op.name context (context.get key) value = true ↔ op.Overlooks context key := by
  have hnumber (hno : (value.asStr.isSome || value.asF64.isSome) = false) :
      value.numeric = none := by
    rw [Bool.or_eq_false_iff, Option.isSome_eq_false_iff, Option.isSome_eq_false_iff,
      Option.isNone_iff_eq_none, Option.isNone_iff_eq_none] at hno
    simp [Value.numeric, hno]
  cases op with
  | stringEquals =>
      have htext : value.asStr = none := by simpa [takes] using h
      simp [name, operatorMatches, Overlooks, htext]
  | stringNotEquals =>
      have htext : value.asStr = none := by simpa [takes] using h
      simp [name, operatorMatches, Overlooks, htext]
  | stringLike =>
      have htext : value.asStr = none := by simpa [takes] using h
      cases hactual : context.get key <;>
        simp [name, operatorMatches, Overlooks, htext]
  | stringNotLike =>
      have htext : value.asStr = none := by simpa [takes] using h
      cases hactual : context.get key <;>
        simp [name, operatorMatches, Overlooks, htext]
  | ipAddress =>
      have htext : value.asStr = none := by simpa [takes] using h
      cases hip : context.sourceIp <;>
        simp [name, operatorMatches, Overlooks, htext, hip]
  | notIpAddress =>
      have htext : value.asStr = none := by simpa [takes] using h
      cases hip : context.sourceIp <;>
        simp [name, operatorMatches, Overlooks, htext, hip]
  | bool =>
      have hshape : value.asStr = none ∧ value.asBool = none := by simpa [takes] using h
      simp [name, operatorMatches, Overlooks, hshape]
  | numericEquals =>
      simp [name, operatorMatches, Overlooks, numericOperands_eq, hnumber h]
  | numericLessThan =>
      simp [name, operatorMatches, Overlooks, numericOperands_eq, hnumber h]
  | numericGreaterThan =>
      simp [name, operatorMatches, Overlooks, numericOperands_eq, hnumber h]
  | null =>
      have hshape : value.asStr = none ∧ value.asBool = none := by simpa [takes] using h
      cases hactual : context.get key <;>
        simp [name, operatorMatches, Overlooks, hshape, hactual]

end ConditionOperator

open ConditionOperator (fromName)

/-! ## Blocks -/

/-- The entry gets through the evaluation: its operator is known, and it holds, or the
operator overlooks a value that it does not take. -/
def EntryPasses (context : ConditionContext) (operator key : String) (value : Value) : Prop :=
  ∃ op, fromName operator = some op ∧
    (op.takes value = true ∧ op.Holds context key value ∨
      op.takes value = false ∧ op.Overlooks context key)

theorem operatorMatches_iff (context : ConditionContext) (operator key : String)
    (value : Value) :
    operatorMatches operator context (context.get key) value = true ↔
      EntryPasses context operator key value := by
  unfold EntryPasses
  cases hname : fromName operator with
  | none =>
      rw [ConditionOperator.operatorMatches_unknown hname]
      simp
  | some op =>
      obtain rfl := ConditionOperator.name_of_fromName hname
      cases htakes : op.takes value with
      | true =>
          rw [ConditionOperator.operatorMatches_takes htakes]
          simp [htakes]
      | false =>
          rw [ConditionOperator.operatorMatches_not_takes htakes]
          simp [htakes]

namespace Value

/-- The operators of a block; none, if it is no object. -/
def operators (condition : Value) : List (String × Value) := condition.asObject.getD []

/-- The entries of a block, each with its operator, as far as operators hold keys and
values. -/
def conditionEntries (condition : Value) : List (String × String × Value) :=
  condition.operators.flatMap fun (operator, conditions) =>
    (conditions.asObject.getD []).map fun (key, value) => (operator, key, value)

/-- The operator is unknown, it holds no keys and values, or it is given a value that it
cannot read. -/
def FaultyOperator (operator : String) (conditions : Value) : Prop :=
  fromName operator = none ∨ conditions.asObject = none ∨
    ∃ op entries, fromName operator = some op ∧ conditions.asObject = some entries ∧
      ∃ entry ∈ entries, op.reads entry.2 = false

/-- **A faulty block** has a faulty operator. -/
def FaultyCondition (condition : Value) : Prop :=
  ∃ entry ∈ condition.operators, FaultyOperator entry.1 entry.2

/-- **A well-formed block**: its operators are known, hold keys and values, and take the
shapes of the values. -/
def WellFormedCondition (condition : Value) : Prop :=
  ∀ entry ∈ condition.operators, ∃ op entries, fromName entry.1 = some op ∧
    entry.2.asObject = some entries ∧ ∀ pair ∈ entries, op.takes pair.2 = true

/-- Every entry of the block holds. -/
def EveryEntryHolds (condition : Value) (context : ConditionContext) : Prop :=
  ∀ entry ∈ condition.conditionEntries, ∃ op, fromName entry.1 = some op ∧
    op.Holds context entry.2.1 entry.2.2

theorem mem_conditionEntries {condition : Value} {entry : String × String × Value} :
    entry ∈ condition.conditionEntries ↔
      ∃ conditions, (entry.1, conditions) ∈ condition.operators ∧
        ∃ entries, conditions.asObject = some entries ∧ entry.2 ∈ entries := by
  unfold conditionEntries
  rw [List.mem_flatMap]
  constructor
  · intro h
    obtain ⟨⟨operator, conditions⟩, hmem, hentry⟩ := h
    obtain ⟨pair, hpair, rfl⟩ := List.mem_map.mp hentry
    cases hobject : conditions.asObject with
    | none => simp [hobject] at hpair
    | some entries =>
        rw [hobject] at hpair
        exact ⟨conditions, hmem, entries, hobject, hpair⟩
  · intro h
    obtain ⟨conditions, hmem, entries, hobject, hentry⟩ := h
    refine ⟨_, hmem, List.mem_map.mpr ⟨entry.2, ?_, rfl⟩⟩
    rw [hobject]
    exact hentry

end Value

/-- An operator takes what it can read. -/
theorem ConditionOperator.takes_of_reads {op : ConditionOperator} {value : Value}
    (h : op.reads value = true) : op.takes value = true := by
  have htext (hsome : value.boolText.isSome) :
      (value.asStr.isSome || value.asBool.isSome) = true := by
    cases htext : value.asStr with
    | some text => rfl
    | none => simpa [Value.boolText, htext] using hsome
  have hnumber (hsome : value.numeric.isSome) :
      (value.asStr.isSome || value.asF64.isSome) = true := by
    cases htext : value.asStr with
    | some text => rfl
    | none => simpa [Value.numeric, htext] using hsome
  cases op with
  | ipAddress | notIpAddress =>
      cases htext : value.asStr with
      | some text => simp [takes, htext]
      | none => simp [reads, htext] at h
  | bool | null =>
      refine htext ?_
      cases hvalue : value.boolText with
      | some text => rfl
      | none => simp [reads, hvalue] at h
  | numericEquals | numericLessThan | numericGreaterThan => exact hnumber h
  | _ => exact h

/-- A block without faults is well-formed. -/
theorem wellFormed_of_not_faulty {condition : Value} (h : ¬condition.FaultyCondition) :
    condition.WellFormedCondition := by
  intro entry hentry
  have hclean := not_exists.mp h entry
  rw [not_and] at hclean
  have hfine := hclean hentry
  unfold Value.FaultyOperator at hfine
  rw [not_or, not_or] at hfine
  obtain ⟨hknown, hobject, hreads⟩ := hfine
  obtain ⟨op, hop⟩ := Option.ne_none_iff_exists'.mp hknown
  obtain ⟨entries, hentries⟩ := Option.ne_none_iff_exists'.mp hobject
  refine ⟨op, entries, hop, hentries, fun pair hpair => ?_⟩
  refine ConditionOperator.takes_of_reads ?_
  by_contra hunread
  exact hreads ⟨op, entries, hop, hentries, pair, hpair, eq_false_of_ne_true hunread⟩

/-- **What the evaluation does**: every entry must get through.  What holds no keys and
values is passed over. -/
theorem evaluateCondition_iff (condition : Value) (context : ConditionContext) :
    evaluateCondition condition context = true ↔
      ∀ entry ∈ condition.conditionEntries, EntryPasses context entry.1 entry.2.1 entry.2.2 := by
  unfold evaluateCondition
  cases hobject : condition.asObject with
  | none =>
      have hnone : condition.conditionEntries = [] := by
        simp [Value.conditionEntries, Value.operators, hobject]
      simp [hnone]
  | some operators =>
      have hoperators : condition.operators = operators := by
        simp [Value.operators, hobject]
      dsimp only
      rw [List.all_eq_true]
      constructor
      · intro h entry hentry
        obtain ⟨conditions, hmem, entries, hentries, hpair⟩ := Value.mem_conditionEntries.mp hentry
        rw [hoperators] at hmem
        have hall := h _ hmem
        simp only [hentries, List.all_eq_true] at hall
        exact (operatorMatches_iff ..).mp (hall _ hpair)
      · intro h entry hmem
        obtain ⟨operator, conditions⟩ := entry
        cases hentries : conditions.asObject with
        | none => simp
        | some entries =>
            simp only [List.all_eq_true]
            intro pair hpair
            refine (operatorMatches_iff ..).mpr (h (operator, pair) ?_)
            rw [Value.mem_conditionEntries, hoperators]
            exact ⟨conditions, hmem, entries, hentries, hpair⟩

/-- **A well-formed block holds** exactly when all of its entries do. -/
theorem holds_of_wellFormed {condition : Value} (h : condition.WellFormedCondition)
    (context : ConditionContext) :
    evaluateCondition condition context = true ↔ condition.EveryEntryHolds context := by
  rw [evaluateCondition_iff]
  refine forall₂_congr fun entry hentry => ?_
  obtain ⟨conditions, hmem, entries, hentries, hpair⟩ := Value.mem_conditionEntries.mp hentry
  obtain ⟨op, found, hop, hfound, htakes⟩ := h _ hmem
  obtain rfl := Option.some.inj (hentries.symm.trans hfound)
  unfold EntryPasses
  simp [hop, htakes _ hpair]

/-! ## Statements -/

namespace BucketPolicyStatement

/-- The statement is about the request, apart from its conditions. -/
def addresses (stmt : BucketPolicyStatement) (principal : Principal) (action : Action)
    (resource : Resource) : Bool :=
  stmt.matchesPrincipal principal && stmt.matchesAction action && stmt.matchesResource resource

theorem matchesWithContext_eq (stmt : BucketPolicyStatement) (principal : Principal)
    (action : Action) (resource : Resource) (context : ConditionContext) :
    stmt.matchesWithContext principal action resource context =
      (stmt.addresses principal action resource && stmt.matchesCondition context) :=
  rfl

/-- The statement has a faulty block. -/
def Faulty (stmt : BucketPolicyStatement) : Prop :=
  ∃ condition, stmt.condition = some condition ∧ condition.FaultyCondition

/-- Some entry of the statement's block does not get through. -/
def Refuses (stmt : BucketPolicyStatement) (context : ConditionContext) : Prop :=
  ∃ condition, stmt.condition = some condition ∧
    ∃ entry ∈ condition.conditionEntries, ¬EntryPasses context entry.1 entry.2.1 entry.2.2

theorem matchesCondition_eq_false_iff (stmt : BucketPolicyStatement)
    (context : ConditionContext) :
    stmt.matchesCondition context = false ↔ stmt.Refuses context := by
  unfold matchesCondition Refuses
  cases hcondition : stmt.condition with
  | none => simp
  | some condition =>
      dsimp only
      rw [← Bool.not_eq_true, evaluateCondition_iff]
      simp only [Option.some.injEq, exists_eq_left', not_forall, exists_prop]

end BucketPolicyStatement

/-- **Conditions never fail open**: a statement with a faulty block contributes no
allowance, and a denial of one is not skipped; a well-formed block holds exactly when
its entries do. -/
structure BucketPolicy.ConditionsFailClosed (policy : BucketPolicy) (principal : Principal)
    (action : Action) (resource : Resource) (context : ConditionContext) : Prop where
  allow : ∀ stmt ∈ policy.statements, stmt.Faulty → stmt.effect = .allow →
    stmt.matchesWithContext principal action resource context = false
  deny : ∀ stmt ∈ policy.statements, stmt.Faulty → stmt.effect = .deny →
    stmt.addresses principal action resource = true →
    stmt.matchesWithContext principal action resource context = true
  wellFormed : ∀ stmt ∈ policy.statements, ∀ condition, stmt.condition = some condition →
    condition.WellFormedCondition →
    (stmt.matchesCondition context = true ↔ condition.EveryEntryHolds context)

/-- **When conditions fail closed**: a statement about the request that has a faulty
block is one that allows if an entry of it is refused, and one that denies if none is. -/
theorem conditionsFailClosed_iff (policy : BucketPolicy) (principal : Principal)
    (action : Action) (resource : Resource) (context : ConditionContext) :
    policy.ConditionsFailClosed principal action resource context ↔
      ∀ stmt ∈ policy.statements, stmt.addresses principal action resource = true →
        stmt.Faulty → (stmt.effect = .allow ↔ stmt.Refuses context) := by
  constructor
  · intro h stmt hstmt haddresses hfaulty
    rw [← stmt.matchesCondition_eq_false_iff]
    cases heffect : stmt.effect with
    | allow =>
        have hrefused := h.allow stmt hstmt hfaulty heffect
        rw [stmt.matchesWithContext_eq, haddresses, Bool.true_and] at hrefused
        exact iff_of_true rfl hrefused
    | deny =>
        have hdenied := h.deny stmt hstmt hfaulty heffect haddresses
        rw [stmt.matchesWithContext_eq, haddresses, Bool.true_and] at hdenied
        rw [hdenied]
        exact iff_of_false (by decide) (by decide)
  · intro h
    refine ⟨fun stmt hstmt hfaulty heffect => ?_, fun stmt hstmt hfaulty heffect haddresses => ?_,
      fun stmt _ condition hcondition hwell => ?_⟩
    · rw [stmt.matchesWithContext_eq]
      cases haddresses : stmt.addresses principal action resource with
      | false => rfl
      | true =>
          rw [Bool.true_and, stmt.matchesCondition_eq_false_iff]
          exact (h stmt hstmt haddresses hfaulty).mp heffect
    · rw [stmt.matchesWithContext_eq, haddresses, Bool.true_and, ← Bool.not_eq_false,
        stmt.matchesCondition_eq_false_iff, ← h stmt hstmt haddresses hfaulty, heffect]
      decide
    · unfold BucketPolicyStatement.matchesCondition
      rw [hcondition]
      exact holds_of_wellFormed hwell context

/-- A statement that allows everything from a network, written as the value of the
operator instead of a key's. -/
def misplacedNetwork : BucketPolicyStatement where
  effect := .allow
  principal := .wildcard
  actions := .single "*"
  resources := .single "*"
  condition := some (.object [("IpAddress", .string "10.0.0.0/8")])

/-- It allows everything from everywhere. -/
theorem conditions_failOpen :
    ¬∀ (policy : BucketPolicy) (principal : Principal) (action : Action) (resource : Resource)
      (context : ConditionContext),
      policy.ConditionsFailClosed principal action resource context := by
  intro hall
  have hfaulty : misplacedNetwork.Faulty :=
    ⟨_, rfl, _, List.mem_singleton_self _, Or.inr (Or.inl rfl)⟩
  have hclosed := (hall { statements := [misplacedNetwork] } .anonymous .getObject
    (.object "docs" "a") {}).allow _ (List.mem_singleton_self _) hfaulty rfl
  exact absurd hclosed (by decide)

end Strix
