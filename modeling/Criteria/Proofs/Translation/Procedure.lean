import Criteria.Proofs.Context.Call
import Criteria.Proofs.Context.Growth
import Criteria.Proofs.Spec.Tree
import Criteria.Proofs.Translation.Steps

/-!
Handlers that reach the context only by calls on it. What such a handler does is a
procedure: it makes calls one after another, each chosen by the answers to those
before it, among them translations and matches of further specifications, which are
procedures again. The log of a procedure holds the calls that have not been taken
back by a match that failed; made by themselves, they get the same answers and
leave the same context.
-/

set_option autoImplicit false

namespace Criteria

variable {Leaf Object : Type}

/-- Calls with the answers to them, in the order in which they were made. -/
abbrev Log (Leaf : Type) := List (Call Leaf × Answer)

/-- The calls of a match by those of its translation: the filter is narrowed after them, or they
are taken back. -/
def Log.ofMatch (log : Log Leaf) : Except TranslationError Condition → Log Leaf
  | .ok c => log ++ [(.andWhere c, .done)]
  | .error _ => []

inductive Procedure (Leaf : Type) where
  | done (outcome : Except TranslationError Condition)
  | call (c : Call Leaf) (basic : c.IsBasic) (next : Answer → Procedure Leaf)
  | translate (inner : Procedure Leaf)
      (next : Except TranslationError Condition → Procedure Leaf)
  | matchSpec (inner : Procedure Leaf) (next : Except TranslationError Unit → Procedure Leaf)

variable [SpecLeaf Leaf Object] {reg : Registry Leaf}

namespace Procedure

def run (reg : Registry Leaf) : Procedure Leaf → Translation Condition
  | .done outcome => fun ctx => (outcome, ctx)
  | .call c _ next => fun ctx =>
    let (answer, ctx) := reg.answer ctx c
    (next answer).run reg ctx
  | .translate inner next => fun ctx =>
    let (outcome, ctx) := inner.run reg ctx
    (next outcome).run reg ctx
  | .matchSpec inner next => fun ctx =>
    let (outcome, ctx) := (inner.run reg).andWhere ctx
    (next outcome).run reg ctx

/-- The calls that are made from a context and not taken back. -/
def log (reg : Registry Leaf) : Procedure Leaf → Context → Log Leaf
  | .done _, _ => []
  | .call c _ next, ctx =>
    let (answer, after) := reg.answer ctx c
    (c, answer) :: (next answer).log reg after
  | .translate inner next, ctx =>
    let (outcome, after) := inner.run reg ctx
    inner.log reg ctx ++ (next outcome).log reg after
  | .matchSpec inner next, ctx =>
    let (outcome, after) := (inner.run reg).andWhere ctx
    (inner.log reg ctx).ofMatch (inner.run reg ctx).1 ++ (next outcome).log reg after

end Procedure

/-- A basic call derives the alias of an entity, or leaves the derived aliases as they are. -/
theorem Registry.aliasFor_or_aliases_eq {call : Call Leaf} (basic : call.IsBasic)
    (reg : Registry Leaf) (ctx : Context) :
    (∃ entity, (reg.answer ctx call).2 = (ctx.aliasFor entity).2) ∨
      (reg.answer ctx call).2.aliases = ctx.aliases := by
  cases call with
  | aliasFor entity | fieldOf entity => exact .inl ⟨entity, rfl⟩
  | addJoin join =>
    have kept := congrArg Context.aliases (ctx.addJoin_eq join)
    exact .inr kept
  | query | select | addSelect | addRoot | andWhere | orderBy | bindParameter | assignParameter =>
    exact .inr rfl
  | translate | matchSpec => exact basic.elim

/-- A procedure has with it all that it translates, and needs no registry for that. -/
theorem Procedure.run_congr (p : Procedure Leaf) (reg other : Registry Leaf) :
    p.run reg = p.run other := by
  induction p with
  | done outcome => rfl
  | call c basic next ih =>
    funext ctx
    simp only [run, Registry.answer_of_isBasic basic reg other]
    exact congrFun (ih _) _
  | translate inner next ihInner ih =>
    funext ctx
    simp only [run, ihInner]
    exact congrFun (ih _) _
  | matchSpec inner next ihInner ih =>
    funext ctx
    simp only [run, ihInner]
    exact congrFun (ih _) _

/-! ### Logs lead from one context to another -/

namespace Registry

/-- The calls of the log, made one after another, get the answers of the log. -/
inductive Leads (reg : Registry Leaf) : Context → Log Leaf → Context → Prop where
  | nil {ctx} : Leads reg ctx [] ctx
  | cons {ctx call log after} (basic : call.IsBasic) :
    Leads reg (reg.answer ctx call).2 log after →
    Leads reg ctx ((call, (reg.answer ctx call).1) :: log) after

variable {ctx mid after : Context} {log more : Log Leaf} {call : Call Leaf}

theorem Leads.append (early : reg.Leads ctx log mid) (late : reg.Leads mid more after) :
    reg.Leads ctx (log ++ more) after := by
  induction early with
  | nil => exact late
  | cons basic _ ih => exact .cons basic (ih late)

theorem Leads.single (basic : call.IsBasic) :
    reg.Leads ctx [(call, (reg.answer ctx call).1)] (reg.answer ctx call).2 :=
  .cons basic .nil

theorem Leads.registry_eq (leads : reg.Leads ctx log after) : after.registry = ctx.registry := by
  induction leads with
  | nil => rfl
  | cons basic _ ih => exact ih.trans (Registries.registry_answer basic reg.alone _)

/-- A match leads where its translation leads and narrows the filter there, or stays. -/
theorem Leads.ofMatch {t : Translation Condition} (leads : reg.Leads ctx log (t ctx).2) :
    reg.Leads ctx (log.ofMatch (t ctx).1) (t.andWhere ctx).2 := by
  unfold Translation.andWhere
  cases ran : t ctx with
  | mk outcome mid =>
    rw [ran] at leads
    cases outcome with
    | ok c =>
      have narrows : Call.IsBasic (.andWhere c : Call Leaf) := trivial
      exact leads.append (.single narrows)
    | error e =>
      have same : mid.registry = ctx.registry := leads.registry_eq
      change reg.Leads ctx [] (ctx.refer mid.registry)
      rw [same]
      exact .nil

end Registry

theorem Procedure.leads (p : Procedure Leaf) (ctx : Context) :
    reg.Leads ctx (p.log reg ctx) (p.run reg ctx).2 := by
  induction p generalizing ctx with
  | done outcome => exact .nil
  | call c basic next ih => exact .cons basic (ih _ _)
  | translate inner next ihInner ih => exact (ihInner ctx).append (ih _ _)
  | matchSpec inner next ihInner ih => exact (ihInner ctx).ofMatch.append (ih _ _)

/-! ### Registries of procedures -/

namespace Registry

/-- What the handlers of a registry do as procedures: for each specification that has a handler,
given the procedures of its children. -/
structure Procedures (reg : Registry Leaf) where
  code : Spec Leaf → List (Procedure Leaf) → Procedure Leaf
  run_code : ∀ spec handler make, reg.conditionHandlerFor spec = .ok (handler, make) →
    ∀ children, (code spec children).run reg = make spec (children.map (Procedure.run reg))

namespace Procedures

variable (procs : reg.Procedures) {spec : Spec Leaf}

def node (spec : Spec Leaf) (children : List (Procedure Leaf)) : Procedure Leaf :=
  match reg.conditionHandlerFor spec with
  | .error e => .done (.error e)
  | .ok _ => procs.code spec children

theorem run_node (spec : Spec Leaf) (children : List (Procedure Leaf)) :
    (procs.node spec children).run reg =
      reg.makeCondition spec (children.map (Procedure.run reg)) := by
  unfold node makeCondition
  cases chosen : reg.conditionHandlerFor spec with
  | error e => rfl
  | ok pair => exact procs.run_code spec pair.1 pair.2 chosen children

mutual
/-- The translation of a specification as a procedure. -/
def translate : Spec Leaf → Procedure Leaf
  | .allOf first rest => procs.node (.allOf first rest) (translate first :: translateEach rest)
  | .anyOf first rest => procs.node (.anyOf first rest) (translate first :: translateEach rest)
  | .not child => procs.node (.not child) [translate child]
  | .any => procs.node .any []
  | .field criterion => procs.node (.field criterion) []
  | .leaf criterion => procs.node (.leaf criterion) []

def translateEach : List (Spec Leaf) → List (Procedure Leaf)
  | [] => []
  | spec :: rest => translate spec :: translateEach rest
end

theorem translateEach_eq (specs : List (Spec Leaf)) :
    procs.translateEach specs = specs.map procs.translate := by
  induction specs with
  | nil => rfl
  | cons spec rest ih => rw [translateEach, ih, List.map_cons]

theorem translate_eq (spec : Spec Leaf) :
    procs.translate spec = procs.node spec (spec.children.map procs.translate) := by
  cases spec <;> simp [translate, Spec.children, translateEach_eq]

theorem run_translate (spec : Spec Leaf) : (procs.translate spec).run reg = reg.translate spec := by
  induction spec using Spec.induction with
  | node spec ih =>
    have children : (spec.children.map procs.translate).map (Procedure.run reg) =
        spec.children.map reg.translate := by
      rw [List.map_map]
      exact List.map_congr_left ih
    rw [procs.translate_eq, run_node, children, ← Registry.translate_eq]

/-- The calls that a call leads to and that are not taken back. -/
def logOf (ctx : Context) : Call Leaf → Log Leaf
  | .translate spec => (procs.translate spec).log reg ctx
  | .matchSpec spec => ((procs.translate spec).log reg ctx).ofMatch (reg.translate spec ctx).1
  | call => [(call, (reg.answer ctx call).1)]

def log (ctx : Context) : List (Call Leaf) → Log Leaf
  | [] => []
  | call :: rest => procs.logOf ctx call ++ log (reg.answer ctx call).2 rest

theorem leads_answer (ctx : Context) (call : Call Leaf) :
    reg.Leads ctx (procs.logOf ctx call) (reg.answer ctx call).2 := by
  have translating : ∀ spec, reg.Leads ctx ((procs.translate spec).log reg ctx)
      (reg.translate spec ctx).2 := by
    intro spec
    rw [← procs.run_translate]
    exact (procs.translate spec).leads ctx
  cases call with
  | translate spec => exact translating spec
  | matchSpec spec => exact (translating spec).ofMatch
  | query | aliasFor | fieldOf | select | addSelect | addRoot | addJoin | andWhere | orderBy
    | bindParameter | assignParameter => exact .single trivial

/-- Calls leave the context that the calls of their log, made by themselves, lead to. -/
theorem leads_run (ctx : Context) (calls : List (Call Leaf)) :
    reg.Leads ctx (procs.log ctx calls) (reg.run ctx calls).2 := by
  induction calls generalizing ctx with
  | nil => exact .nil
  | cons call rest ih => exact (procs.leads_answer ctx call).append (ih _)

end Procedures

end Registry

/-! ### The standard handlers -/

namespace Procedure

variable {children : List (Procedure Leaf)} {spec : Spec Leaf}

/-- Translates the children in order, up to the first that fails. -/
def row (handler : String) :
    List (Procedure Leaf) → (List Condition → Procedure Leaf) → Procedure Leaf
  | [], next => next []
  | child :: rest, next => .translate child fun
    | .ok c => row handler rest fun others => next (c :: others)
    | .error e => .done (.error (e.within handler))

theorem run_row (handler : String) (children : List (Procedure Leaf))
    (next : List Condition → Procedure Leaf) :
    (row handler children next).run reg =
      (children.map (run reg)).mapM (Translation.within handler) >>= fun parts =>
        (next parts).run reg := by
  induction children generalizing next with
  | nil => rfl
  | cons child rest ih =>
    funext ctx
    rw [List.map_cons, List.mapM_cons, bind_assoc]
    cases ran : child.run reg ctx with
    | mk outcome mid =>
      cases outcome with
      | ok c =>
        rw [Translation.bind_of_ok (Translation.within_eq_ok_iff.2 ran), bind_assoc]
        simp only [row, run, ran, pure_bind]
        exact congrFun (ih _) mid
      | error e =>
        have failed : Translation.within handler (child.run reg) ctx =
            (.error (e.within handler), mid) := by
          simp only [Translation.within, ran]
        rw [Translation.bind_of_error failed]
        simp only [row, run, ran]

def group (handler : String) (spec : Spec Leaf) (combine : List Condition → Condition) :
    List (Procedure Leaf) → Procedure Leaf
  | [] => .done (.error { type := spec.type, reason := .emptyComposite handler })
  | children => row handler children fun parts => .done (.ok (combine parts))

theorem run_group (handler : String) (spec : Spec Leaf) (combine : List Condition → Condition)
    (children : List (Procedure Leaf)) :
    (group handler spec combine children).run reg =
      Handler.translateChildren handler spec (children.map (run reg)) >>= fun parts =>
        pure (combine parts) := by
  cases children with
  | nil => rfl
  | cons first rest =>
    exact run_row handler (first :: rest) fun parts => .done (.ok (combine parts))

/-- What the standard handlers do; for the leaves of the user's it is given. -/
def standard (leaf : Leaf → Procedure Leaf) (spec : Spec Leaf) (children : List (Procedure Leaf)) :
    Procedure Leaf :=
  match spec with
  | .allOf .. => group "AllOfHandler" spec .all children
  | .anyOf .. => group "AnyOfHandler" spec .any children
  | .not _ =>
    match children with
    | [] => .done (.error { type := spec.type, reason := .emptyComposite "NotHandler" })
    | child :: _ => .translate child fun outcome => .done (outcome.map .not)
  | .any => .done (.ok .always)
  | .field c =>
    .call (.fieldOf c.entity c.field) trivial fun
      | .field ref => .call (.bindParameter c.field c.value) trivial fun
        | .name parameter => .done (.ok (.compare (.field ref) c.op (.parameter parameter)))
        | _ => .done (.ok .always)
      | _ => .done (.ok .always)
  | .leaf criterion => leaf criterion

theorem run_standard {handler : Handler Leaf} {make : ConditionMaker Leaf}
    (leaf : Leaf → Procedure Leaf) (known : Handler.standard? spec.type = some handler)
    (makes : handler.makeCondition? = some make) (children : List (Procedure Leaf)) :
    (standard leaf spec children).run reg = make spec (children.map (run reg)) := by
  cases spec with
  | allOf | anyOf =>
    cases known
    cases makes
    exact run_group _ _ _ children
  | not child =>
    cases known
    cases makes
    cases children with
    | nil => rfl
    | cons first rest =>
      funext ctx
      cases ran : first.run reg ctx with
      | mk outcome mid =>
        simp only [List.map_cons, standard, run, ran]
        cases outcome with
        | ok c =>
          rw [Translation.bind_of_ok ran]
          rfl
        | error e =>
          rw [Translation.bind_of_error ran]
          rfl
  | any =>
    cases known
    cases makes
    rfl
  | field criterion =>
    cases known
    cases makes
    rfl
  | leaf criterion => cases known

/-- A handler that does the same for all specifications of its type. -/
def handler (name : String) (type : SpecType) (p : Procedure Leaf) : Handler Leaf where
  name := name
  handles := type
  makeCondition? := some fun _ _ => p.run {}

end Procedure

namespace Registry

/-- A registry of the standard handlers and of procedures for leaves. -/
def procedures (has : reg.HasStandard) (leaf : Leaf → Procedure Leaf)
    (others : ∀ criterion handler make,
      reg.conditionHandlerFor (.leaf criterion) = .ok (handler, make) →
      ∀ children, (leaf criterion).run reg = make (.leaf criterion) children) :
    reg.Procedures where
  code := Procedure.standard leaf
  run_code spec handler make chosen children := by
    obtain ⟨found, makes⟩ := conditionHandlerFor_eq_ok chosen
    cases standard : (Handler.standard? spec.type : Option (Handler Leaf)) with
    | some known =>
      have same : known = handler := Option.some.inj ((has _ _ standard).symm.trans found)
      subst same
      exact Procedure.run_standard leaf standard makes children
    | none =>
      cases spec with
      | leaf criterion => exact others criterion handler make chosen _
      | allOf | anyOf | not | any | field => cases standard

/-- Adds clauses and a parameter, and tries a match that adds a join and fails. -/
def meddler : Procedure Marker :=
  .call (.addJoin ⟨.left, ⟨"app.User"⟩, "u", none⟩) trivial fun _ =>
  .call (.addRoot ⟨"app.Order"⟩ "o") trivial fun _ =>
  .call (.bindParameter "limit" (.int 1)) trivial fun _ =>
  .matchSpec
    (.call (.addJoin ⟨.inner, ⟨"app.Item"⟩, "i", none⟩) trivial fun _ =>
      .done (.error { type := .leaf "meddled", reason := .noHandler })) fun _ =>
  .call (.addJoin ⟨.inner, ⟨"app.Visit"⟩, "u", some .always⟩) trivial fun _ =>
  .done (.ok .always)

def meddled : Registry Marker :=
  standard.addHandler (meddler.handler "Meddler" (.leaf "meddled"))

theorem hasStandard_meddled : meddled.HasStandard := by
  intro type handler known
  cases type with
  | leaf name => cases known
  | allOf | anyOf | not | any | field => exact known

theorem eq_of_lookup?_meddled {name : String} {found : Handler Marker}
    (registered : meddled.lookup? (.leaf name) = some found) :
    found = meddler.handler "Meddler" (.leaf "meddled") := by
  have last : meddled.lookup? (.leaf name) =
      [meddler.handler "Meddler" (.leaf "meddled")].find? fun h => h.handles = .leaf name := rfl
  rw [last] at registered
  exact List.mem_singleton.1 (List.mem_of_find?_eq_some registered)

def meddledProcedures : meddled.Procedures :=
  procedures hasStandard_meddled (fun _ => meddler) fun criterion handler make chosen children => by
    obtain ⟨found, makes⟩ := conditionHandlerFor_eq_ok chosen
    cases eq_of_lookup?_meddled found
    cases makes
    exact meddler.run_congr meddled {}

end Registry

end Criteria
