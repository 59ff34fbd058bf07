import Criteria.Translation.Registry

/-! Calls on a context, the answers to them, and runs of several calls. Which registry they are made
with is up to the context at each of them; with one registry alone it makes no difference. -/

set_option autoImplicit false

namespace Criteria

inductive Call (Leaf : Type) where
  | query
  | aliasFor (entity : EntityType)
  | fieldOf (entity : EntityType) (field : String)
  | select (items : List String)
  | addSelect (item : String)
  | addRoot (entity : EntityType) (aliasName : String)
  | addJoin (join : Join)
  | andWhere (condition : Condition)
  | orderBy (key : SortKey)
  | bindParameter (hint : String) (value : Literal)
  | assignParameter (name : String) (value : Literal)
  | translate (spec : Spec Leaf)
  | matchSpec (spec : Spec Leaf)

/-- A call that is not handed on to handlers. -/
def Call.IsBasic {Leaf : Type} : Call Leaf → Prop
  | .translate _ | .matchSpec _ => False
  | _ => True

inductive Answer where
  | done
  | query (q : Query)
  | name (text : String)
  | field (ref : FieldRef)
  | condition (c : Condition)
  | failed (e : TranslationError)

namespace Answer

def ofTranslation : Except TranslationError Condition → Answer
  | .ok c => .condition c
  | .error e => .failed e

def ofMatch : Except TranslationError Unit → Answer
  | .ok () => .done
  | .error e => .failed e

end Answer

namespace Context

/-- The context made to refer to a registry. -/
def refer (ctx : Context) (n : Nat) : Context :=
  { ctx with registry := n }

theorem aliasFor_refer (ctx : Context) (n : Nat) (entity : EntityType) :
    (ctx.refer n).aliasFor entity = ((ctx.aliasFor entity).1, (ctx.aliasFor entity).2.refer n) := by
  simp only [aliasFor, refer, derivedAlias?]
  cases ctx.query.rootAlias? entity with
  | some name => rfl
  | none => cases ctx.aliases.lookup entity <;> rfl

end Context

variable {Leaf Object : Type} [SpecLeaf Leaf Object]

namespace Registries

def answer (regs : Registries Leaf) (ctx : Context) : Call Leaf → Answer × Context
  | .query => (.query ctx.query, ctx)
  | .aliasFor entity => (ctx.aliasFor entity).map .name id
  | .fieldOf entity field => (ctx.fieldOf entity field).map .field id
  | .select items => (.done, ctx.select items)
  | .addSelect item => (.done, ctx.addSelect item)
  | .addRoot entity aliasName => (.done, ctx.addRoot entity aliasName)
  | .addJoin join => (.done, ctx.addJoin join)
  | .andWhere condition => (.done, ctx.andWhere condition)
  | .orderBy key => (.done, ctx.orderBy key)
  | .bindParameter hint value => (ctx.bindParameter hint value).map .name id
  | .assignParameter name value => (.done, ctx.assignParameter name value)
  | .translate spec => (regs.translate spec ctx).map .ofTranslation id
  | .matchSpec spec => (regs.matchSpec spec ctx).map .ofMatch id

/-- The answers to calls made one after another, and the context that they leave. -/
def run (regs : Registries Leaf) (ctx : Context) : List (Call Leaf) → List Answer × Context
  | [] => ([], ctx)
  | call :: rest =>
    let (answer, ctx) := regs.answer ctx call
    let (answers, ctx) := regs.run ctx rest
    (answer :: answers, ctx)

/-- Neither the answer to a basic call nor what it does depends on the registry. -/
theorem answer_refer {call : Call Leaf} (basic : call.IsBasic) (regs : Registries Leaf)
    (ctx : Context) (n : Nat) :
    regs.answer (ctx.refer n) call =
      ((regs.answer ctx call).1, (regs.answer ctx call).2.refer n) := by
  cases call with
  | aliasFor entity | fieldOf entity field =>
    simp only [answer, Context.fieldOf, ctx.aliasFor_refer, Prod.map, id]
  | addJoin join =>
    by_cases taken : join.aliasName ∈ ctx.query.joinAliases <;>
      simp [answer, Context.addJoin, Context.refer, taken]
  | query | select | addSelect | addRoot | andWhere | orderBy | bindParameter | assignParameter =>
    rfl
  | translate | matchSpec => exact basic.elim

theorem registry_answer {call : Call Leaf} (basic : call.IsBasic) (regs : Registries Leaf)
    (ctx : Context) : (regs.answer ctx call).2.registry = ctx.registry :=
  congrArg (fun result => result.2.registry) (answer_refer basic regs ctx ctx.registry)

end Registries

namespace Registry

def answer (reg : Registry Leaf) (ctx : Context) (call : Call Leaf) : Answer × Context :=
  reg.alone.answer ctx call

def run (reg : Registry Leaf) (ctx : Context) (calls : List (Call Leaf)) : List Answer × Context :=
  reg.alone.run ctx calls

theorem answer_match (reg : Registry Leaf) (ctx : Context) (spec : Spec Leaf) :
    reg.answer ctx (.matchSpec spec) =
      (.ofMatch (reg.matchSpec spec ctx).1, (reg.matchSpec spec ctx).2) := rfl

theorem run_nil (reg : Registry Leaf) (ctx : Context) : reg.run ctx [] = ([], ctx) := rfl

theorem run_cons (reg : Registry Leaf) (ctx : Context) (call : Call Leaf)
    (rest : List (Call Leaf)) : reg.run ctx (call :: rest) =
      ((reg.answer ctx call).1 :: (reg.run (reg.answer ctx call).2 rest).1,
        (reg.run (reg.answer ctx call).2 rest).2) := rfl

theorem answer_of_isBasic {call : Call Leaf} (basic : call.IsBasic) (reg other : Registry Leaf)
    (ctx : Context) : reg.answer ctx call = other.answer ctx call := by
  cases call with
  | translate | matchSpec => exact basic.elim
  | query | aliasFor | fieldOf | select | addSelect | addRoot | addJoin | andWhere | orderBy
    | bindParameter | assignParameter => rfl

end Registry

end Criteria
