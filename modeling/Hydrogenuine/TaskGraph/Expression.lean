import Hydrogenuine.Support.Heap
import Hydrogenuine.Support.Stateful
import Hydrogenuine.TaskGraph.Schema

/-!
# The expression engine

Embedding of `hg_core/task_graph/expression.py`.  An expression is a JSON value; the
values it is evaluated to refer to objects of the context, which `*` on a list changes in
place.  Each operator takes its operands one after the other as long as it goes on, and
concludes from the values it got: `and` stops at a false operand, `or` at a true one, and
a comparison takes two operands.  `_evaluate` never returns the sentinel for a missing
variable, so that its tests for the sentinel are left out.

Sums and products of floats and the formatting of texts are services of the interpreter.
A value that contains itself can be neither compared nor rendered here.
-/

namespace Hydrogenuine.TaskGraph

open Support

/-! ## Exceptions and services -/

/-- What evaluating an expression may raise. -/
inductive ExprError where
  | valueError (message : String)
  | typeError
  | attributeError
  | zeroDivisionError
  | overflowError
  | recursionError
deriving DecidableEq

/-- An integer or a float. -/
inductive Number where
  | int (n : ℤ)
  | float (x : PyFloat)

/-- What is taken from the interpreter.  The operations are those on two numbers, or more
for `sum`, of which one is a float. -/
structure Interpreter where
  /-- `str` of a list or a dictionary. -/
  renderContainer : PyVal → String
  sum : List Number → Except ExprError PyFloat
  sub : Number → Number → Except ExprError PyFloat
  mul : Number → Number → Except ExprError PyFloat
  mod : Number → Number → Except ExprError PyFloat
  /-- `text % value`. -/
  format : String → PyVal → Except ExprError String

def Interpreter.noFloats : Interpreter where
  renderContainer := fun _ => ""
  sum := fun _ => .error .overflowError
  sub := fun _ _ => .error .overflowError
  mul := fun _ _ => .error .overflowError
  mod := fun _ _ => .error .overflowError
  format := fun text _ => .ok text

/-- The context of an expression.  `context["graph"]["inputs"]` is `inputs`; a missing key
is an empty dictionary. -/
structure ExprContext where
  state : List (String × Datum) := []
  node : List (String × Datum) := []
  inputs : List (String × Datum) := []
  loop : List (String × Datum) := []

/-- The objects and `missing_paths`. -/
structure EvalState where
  heap : Heap
  missing : List PyVal := []

abbrev EvalM := EStateM ExprError EvalState

/-- `strict`, and whether `missing_paths` is given. -/
structure EvalMode where
  strict : Bool
  collecting : Bool := false

def EvalMode.effectiveStrict (mode : EvalMode) : Bool := mode.strict && !mode.collecting

def readHeap : EvalM Heap := do return (← get).heap

def modifyHeap (f : Heap → Heap) : EvalM Unit := modify fun s => { s with heap := f s.heap }

/-! ## Variables -/

/-- `text.strip(".")`. -/
def stripDots (text : String) : String :=
  String.ofList ((((text.toList.dropWhile (· == '.')).reverse).dropWhile (· == '.')).reverse)

/-- `text.split(".")`. -/
def dotSegments : List Char → List (List Char)
  | [] => [[]]
  | c :: rest =>
      match dotSegments rest with
      | [] => [[c]]
      | segment :: segments =>
          if c = '.' then [] :: segment :: segments else (c :: segment) :: segments

def pathKeys (path : String) : List String :=
  (dotSegments path.toList).map String.ofList

/-- `_get_by_dot_path` from the items of a dictionary. -/
def getByDotPath (h : Heap) : List String → List (String × Datum) → Option Datum
  | [], _ => none
  | [key], items => if strip key = "" then none else lookupEntry (strip key) items
  | key :: rest, items =>
      if strip key = "" then none
      else
        (lookupEntry (strip key) items).bind fun d =>
          (h.dict? d).bind (getByDotPath h rest)

/-- The text after its first `n` characters. -/
def textFrom (text : String) (n : ℕ) : String := String.ofList (text.toList.drop n)

/-- `resolve_var` of a path that is a text without blanks around it, `none` for the
sentinel. -/
def resolvePath (h : Heap) (ctx : ExprContext) (path : String) : Option Datum :=
  if path = "" then none
  else if startsWith path "state." then
    getByDotPath h (pathKeys (stripDots (textFrom path 6))) ctx.state
  else if startsWith path "node." then
    (splitDot (stripDots (textFrom path 5))).bind fun (nid, outKey) =>
      (lookupEntry (strip nid) ctx.node).bind fun out =>
        (h.dict? out).bind (lookupEntry (strip outKey))
  else if startsWith path "graph.inputs." then
    let key := stripDots (textFrom path 13)
    if key = "" then none else lookupEntry key ctx.inputs
  else if startsWith path "loop." then
    let key := stripDots (textFrom path 5)
    if ["id", "iteration", "max_iterations", "state"].contains key then
      lookupEntry key ctx.loop
    else none
  else none

def resolveVar (h : Heap) (ctx : ExprContext) : PyVal → Except ExprError (Option Datum)
  | .str path => .ok (resolvePath h ctx (strip path))
  | path => if path.truthy then .error .attributeError else .ok none

/-- `missing_paths.add(path)`. -/
def addMissing (path : PyVal) : EvalM Unit :=
  match path with
  | .list _ => throw .typeError
  | .dict _ => throw .typeError
  | path => modify fun s => { s with missing := s.missing ++ [path] }

section

variable (env : Interpreter)

/-- `str(v)` of a tree. -/
def Interpreter.str (v : PyVal) : String := v.render env.renderContainer

def variablePath : PyVal → PyVal
  | .list items => items.headD (.str "")
  | spec => .str (env.str spec)

def variableDefault : PyVal → PyVal
  | .list (_ :: default :: _) => default
  | _ => .none

def variableRef (mode : EvalMode) (ctx : ExprContext) (spec : PyVal) : EvalM Datum := do
  let path := variablePath env spec
  match ← raising (resolveVar (← readHeap) ctx path) with
  | some d => return d
  | none =>
      if mode.collecting then
        addMissing path
      if mode.effectiveStrict then
        match variableDefault spec with
        | .none => throw (.valueError ("Missing variable path: " ++ env.str path))
        | default =>
            let (h, d) := Heap.alloc default (← readHeap)
            modifyHeap fun _ => h
            return d
      else return .none

end

/-! ## Operators -/

inductive Comparison where
  | eq | ne | lt | le | gt | ge
deriving DecidableEq

inductive ArithmeticOp where
  | add | sub | mul | mod
deriving DecidableEq

inductive Operator where
  | not
  | and
  | or
  | compare (op : Comparison)
  | arithmetic (op : ArithmeticOp)
deriving DecidableEq

def Operator.parse : String → Option Operator
  | "!" => some .not
  | "and" => some .and
  | "or" => some .or
  | "==" => some (.compare .eq)
  | "!=" => some (.compare .ne)
  | "<" => some (.compare .lt)
  | "<=" => some (.compare .le)
  | ">" => some (.compare .gt)
  | ">=" => some (.compare .ge)
  | "+" => some (.arithmetic .add)
  | "-" => some (.arithmetic .sub)
  | "*" => some (.arithmetic .mul)
  | "%" => some (.arithmetic .mod)
  | _ => none

/-- `args if isinstance(args, list) else [args]`. -/
def argumentList : PyVal → List PyVal
  | .list items => items
  | arg => [arg]

def Operator.operands (op : Operator) (args : PyVal) : List PyVal :=
  match op with
  | .not => [args]
  | .compare _ => (argumentList args).take 2
  | _ => argumentList args

def Operator.checkArguments (op : Operator) (key : String) (args : PyVal) :
    Except ExprError Unit :=
  match op with
  | .compare _ =>
      match args with
      | .list (_ :: _ :: _) => .ok ()
      | _ => .error (.valueError ("Binary operator " ++ key ++ " requires [a, b]"))
  | .arithmetic .add => .ok ()
  | .arithmetic _ =>
      if (argumentList args).length < 2 then
        .error (.valueError ("Operator " ++ key ++ " requires at least two operands"))
      else .ok ()
  | _ => .ok ()

/-- The next operand is evaluated after one with this value. -/
def Operator.goesOn (op : Operator) (h : Heap) (d : Datum) : Bool :=
  match op with
  | .and => h.truthy d
  | .or => !h.truthy d
  | _ => true

/-! ### Comparisons -/

def readValue (d : Datum) : EvalM PyVal := do
  match (← readHeap).value d with
  | some v => return v
  | none => throw .recursionError

/-- A comparison of two trees; `none` when their types are not ordered. -/
def Comparison.apply (op : Comparison) (a b : PyVal) : Option Bool :=
  match op with
  | .eq => some (a.pyEq b)
  | .ne => some (!a.pyEq b)
  | .lt => a.pyLt b
  | .le => a.pyLe b
  | .gt => b.pyLt a
  | .ge => b.pyLe a

def compare (mode : EvalMode) (key : String) (op : Comparison) (a b : Datum) :
    EvalM Datum :=
  if mode.effectiveStrict && (a.isNone || b.isNone) then
    throw (.valueError ("null in comparison " ++ key ++ " (strict)"))
  else if op ≠ .eq ∧ op ≠ .ne ∧ (a.isNone || b.isNone) = true then return .bool false
  else do
    let x ← readValue a
    let y ← readValue b
    match op.apply x y with
    | some result => return .bool result
    | none => throw .typeError

/-! ### Arithmetic -/

/-- The number that a value is, with booleans as integers. -/
def numberOf : Datum → Option Number
  | .bool b => some (.int (if b then 1 else 0))
  | .int n => some (.int n)
  | .float x => some (.float x)
  | _ => none

/-- Integers, when there is no float among the numbers. -/
def integers? (numbers : List Number) : Option (List ℤ) :=
  numbers.mapM fun
    | .int n => some n
    | .float _ => none

def intMod (a b : ℤ) : Except ExprError ℤ :=
  if b = 0 then .error .zeroDivisionError else .ok (a.fmod b)

def onNumbers (ints : ℤ → ℤ → Except ExprError ℤ)
    (floats : Number → Number → Except ExprError PyFloat) :
    Number → Number → Except ExprError Datum
  | .int a, .int b => (ints a b).map .int
  | x, y => (floats x y).map .float

section

variable (env : Interpreter)

def sumNumbers (numbers : List Number) : Except ExprError Datum :=
  match integers? numbers with
  | some ints => .ok (.int ints.sum)
  | none => (env.sum numbers).map .float

/-- `str(v)`. -/
def strOf (d : Datum) : EvalM String := do return env.str (← readValue d)

/-- `+`: `sum`, or the texts of the first two values when there is one that is no
number. -/
def add (vals : List Datum) : EvalM Datum :=
  match vals with
  | [d] => return d
  | vals => do
      let numbers := (vals.map numberOf).takeWhile Option.isSome
      let total ← raising (sumNumbers env numbers.reduceOption)
      if numbers.length = vals.length then return total
      else
        match vals with
        | a :: b :: _ =>
            let x ← strOf env a
            let y ← strOf env b
            return .str (x ++ y)
        | _ => return total

/-- `-` of two values. -/
def sub (a b : Datum) : EvalM Datum :=
  match numberOf a, numberOf b with
  | some x, some y => raising (onNumbers (fun m n => .ok (m - n)) env.sub x y)
  | _, _ => throw .typeError

/-- `%` of two values. -/
def mod (a b : Datum) : EvalM Datum :=
  match a with
  | .str text => do
      let v ← readValue b
      return .str (← raising (env.format text v))
  | a =>
      match numberOf a, numberOf b with
      | some x, some y => raising (onNumbers intMod env.mod x y)
      | _, _ => throw .typeError

/-- `text * n`. -/
def repeatText (text : String) (n : ℤ) : String :=
  String.ofList (List.replicate n.toNat text.toList).flatten

/-- `items * n`. -/
def repeatList (items : List Datum) (n : ℤ) : List Datum :=
  (List.replicate n.toNat items).flatten

/-- `a *= b`: a list is repeated in place. -/
def mulAssign (a b : Datum) : EvalM Datum := do
  let h ← readHeap
  match a, b with
  | .str text, b =>
      match b.integer? with
      | some n => return .str (repeatText text n)
      | none => throw .typeError
  | .ref address, b =>
      match h.list? (.ref address), b.integer? with
      | some items, some n =>
          modifyHeap fun h => h.set address (.list (repeatList items n))
          return .ref address
      | _, _ => throw .typeError
  | a, .str text =>
      match a.integer? with
      | some n => return .str (repeatText text n)
      | none => throw .typeError
  | a, .ref address =>
      match h.list? (.ref address), a.integer? with
      | some items, some n =>
          modifyHeap fun h => h ++ [.list (repeatList items n)]
          return .ref h.length
      | _, _ => throw .typeError
  | a, b =>
      match numberOf a, numberOf b with
      | some x, some y => raising (onNumbers (fun m n => .ok (m * n)) env.mul x y)
      | _, _ => throw .typeError

/-- An arithmetic operator on values other than `None`. -/
def applyArithmetic (op : ArithmeticOp) (vals : List Datum) : EvalM Datum :=
  match op, vals with
  | .add, vals => add env vals
  | .sub, a :: b :: _ => sub env a b
  | .mod, a :: b :: _ => mod env a b
  | .mul, a :: rest => rest.foldlM (mulAssign env) a
  | _, _ => throw .typeError

def arithmetic (mode : EvalMode) (key : String) (op : ArithmeticOp) (vals : List Datum) :
    EvalM Datum :=
  if vals.any Datum.isNone then
    if mode.effectiveStrict then
      throw (.valueError ("null in arithmetic " ++ key ++ " (strict)"))
    else return .none
  else applyArithmetic env op vals

/-! ## Evaluation -/

/-- What an operator makes of the values of its operands, up to the one that it stopped
at. -/
def conclude (mode : EvalMode) (key : String) (op : Operator) (vals : List Datum) :
    EvalM Datum :=
  match op, vals with
  | .not, d :: _ => do return .bool (!(← readHeap).truthy d)
  | .and, vals => do
      match vals.getLast? with
      | some d => return if (← readHeap).truthy d then .bool true else d
      | none => return .bool true
  | .or, vals => return vals.getLast?.getD .none
  | .compare op, a :: b :: _ => compare mode key op a b
  | .arithmetic op, vals => arithmetic env mode key op vals
  | _, _ => throw .typeError

def unsupported (expr : PyVal) : ExprError :=
  .valueError ("Unsupported expression: " ++ env.renderContainer expr)

variable (mode : EvalMode) (ctx : ExprContext)

mutual

def evaluate : PyVal → EvalM Datum
  | .none => return .none
  | .bool b => return .bool b
  | .int n => return .int n
  | .float x => return .float x
  | .str s => return .str s
  | .list items => throw (unsupported env (.list items))
  | .dict [(key, args)] =>
      if key = "var" then variableRef env mode ctx args
      else
        match Operator.parse key with
        | none => throw (unsupported env (.dict [(key, args)]))
        | some op => do
            raising (op.checkArguments key args)
            match args with
            | .list items =>
                -- `!` takes a list as its operand, which is no expression.
                if op = .not then throw (unsupported env (.list items))
                else
                  let count := (op.operands (.list items)).length
                  conclude env mode key op (← evaluateEach op count items)
            | arg => conclude env mode key op [← evaluate arg]
  | .dict items => throw (unsupported env (.dict items))

/-- The values of the first operands, up to the one that the operator stops at. -/
def evaluateEach (op : Operator) : ℕ → List PyVal → EvalM (List Datum)
  | 0, _ => return []
  | _, [] => return []
  | count + 1, operand :: rest => do
      let d ← evaluate operand
      if op.goesOn (← readHeap) d then
        return d :: (← evaluateEach op count rest)
      else return [d]

end

end

end Hydrogenuine.TaskGraph
