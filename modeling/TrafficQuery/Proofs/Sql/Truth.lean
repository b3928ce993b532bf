import TrafficQuery.Sql.Expr

/-!
# Three-valued truth

What a test on rows is worth once its atoms are: each comparison and each pattern test is true,
false or unknown, and the connectives are those of Kleene.
-/

namespace TrafficQuery.Sql

inductive Truth
  | no | unknown | yes
  deriving DecidableEq, Repr, Inhabited

namespace Truth

/-- Both are true, or one of them is false, or it is unknown. -/
def and : Truth → Truth → Truth
  | .no, _ => .no
  | _, .no => .no
  | .yes, .yes => .yes
  | _, _ => .unknown

/-- One of them is true, or both are false, or it is unknown. -/
def or : Truth → Truth → Truth
  | .yes, _ => .yes
  | _, .yes => .yes
  | .no, .no => .no
  | _, _ => .unknown

def not : Truth → Truth
  | .no => .yes
  | .unknown => .unknown
  | .yes => .no

def join : Connective → Truth → Truth → Truth
  | .and => and
  | .or => or

/-- One of several is true. -/
def any (vs : List Truth) : Truth := vs.foldr or .no

@[simp] theorem not_not (v : Truth) : v.not.not = v := by cases v <;> rfl

theorem or_assoc (u v w : Truth) : (u.or v).or w = u.or (v.or w) := by
  cases u <;> cases v <;> cases w <;> rfl

@[simp] theorem or_no (v : Truth) : v.or .no = v := by cases v <;> rfl

theorem join_assoc (op : Connective) (u v w : Truth) :
    join op (join op u v) w = join op u (join op v w) := by
  cases op <;> cases u <;> cases v <;> cases w <;> rfl

end Truth

/-- What the atoms are worth: the comparisons, and the pattern tests with and without escape. -/
structure Assignment where
  compare : OrderOp → Term → Term → Truth
  like : Term → String → Bool → Truth

namespace Expr

def truth (a : Assignment) : Expr → Truth
  | .compare op l r => a.compare op l r
  | .like t pattern escaped => a.like t pattern escaped
  | .binary op l r => .join op (l.truth a) (r.truth a)
  | .negation e => (e.truth a).not

/-- The worth of a run of expressions behind a first one. -/
def runTruth (a : Assignment) (op : Connective) (v : Truth) (es : List Expr) : Truth :=
  es.foldl (fun v e => .join op v (e.truth a)) v

theorem runTruth_join (a : Assignment) (op : Connective) (v w : Truth) (es : List Expr) :
    runTruth a op (.join op v w) es = .join op v (runTruth a op w es) := by
  induction es generalizing w with
  | nil => rfl
  | cons e es ih =>
    change runTruth a op (.join op (.join op v w) (e.truth a)) es = _
    rw [Truth.join_assoc, ih]
    rfl

theorem runTruth_append (a : Assignment) (op : Connective) (v : Truth) (es fs : List Expr) :
    runTruth a op v (es ++ fs) = runTruth a op (runTruth a op v es) fs :=
  List.foldl_append

end Expr
end TrafficQuery.Sql
