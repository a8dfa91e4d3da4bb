import Calculator.Token
import Mathlib.Tactic.Lemma

/-!
# Operator trees

An operator tree is an expression without its parentheses: numbers at the leaves and an operator at
every other node. `Tree.postorder` lists its tokens in reverse Polish order and `Tree.value` is what
it stands for under a choice of operations. No two trees have the same listing
(`Tree.postorder_injective`), because `Tree.assemble` builds the tree again from its listing.

`depth` counts numbers up and operators down. It is one for a listing (`Tree.depth_postorder`).
-/

namespace Calculator

/-- A number, or an operator with its two operands. -/
inductive Tree where
  | number (value : Float)
  | node (op : Operator) (left right : Tree)

namespace Tree

/-- The tokens of the tree, each operator behind its operands. -/
def postorder : Tree → List Token
  | number value => [.number value]
  | node op left right => left.postorder ++ right.postorder ++ [.operator op]

/-- The value of the tree under the operations `apply`. -/
def value (apply : Operator → Float → Float → Float) : Tree → Float
  | number value => value
  | node op left right => apply op (left.value apply) (right.value apply)

/-- Reads tokens onto a stack of trees, past those that do not fit. -/
def assemble : List Tree → List Token → List Tree
  | trees, [] => trees
  | trees, .number value :: tokens => assemble (number value :: trees) tokens
  | right :: left :: trees, .operator op :: tokens => assemble (node op left right :: trees) tokens
  | trees, _ :: tokens => assemble trees tokens

/-- Reading a listing puts its tree on the stack. -/
lemma assemble_postorder (t : Tree) (trees : List Tree) (tokens : List Token) :
    assemble trees (t.postorder ++ tokens) = assemble (t :: trees) tokens := by
  induction t generalizing trees tokens with
  | number value => rfl
  | node op left right ihl ihr =>
    simp only [postorder, List.append_assoc]
    rw [ihl, ihr]
    rfl

/-- A tree is known by its listing. -/
lemma postorder_injective {t u : Tree} (e : t.postorder = u.postorder) : t = u := by
  have ht := assemble_postorder t [] []
  have hu := assemble_postorder u [] []
  rw [e, hu] at ht
  exact (List.cons.inj ht).1.symm

end Tree

namespace Token

/-- Whether the token is a number. -/
def isNumber : Token → Bool
  | number _ => true
  | _ => false

/-- Whether the token is an operator. -/
def isOperator : Token → Bool
  | operator _ => true
  | _ => false

end Token

/-- The numbers among the tokens less the operators. -/
def depth (tokens : List Token) : Int :=
  tokens.countP Token.isNumber - tokens.countP Token.isOperator

/-- The empty sequence has depth zero. -/
@[simp] lemma depth_nil : depth [] = 0 := rfl

/-- A number adds one. -/
@[simp] lemma depth_number (value : Float) (tokens : List Token) :
    depth (.number value :: tokens) = depth tokens + 1 := by
  simp only [depth, List.countP_cons, Token.isNumber, Token.isOperator]
  simp
  omega

/-- An operator takes two operands and leaves one. -/
@[simp] lemma depth_operator (op : Operator) (tokens : List Token) :
    depth (.operator op :: tokens) = depth tokens - 1 := by
  simp only [depth, List.countP_cons, Token.isNumber, Token.isOperator]
  simp
  omega

/-- A parenthesis counts for nothing. -/
@[simp] lemma depth_paren (side : Paren) (tokens : List Token) :
    depth (.paren side :: tokens) = depth tokens := by
  simp [depth, Token.isNumber, Token.isOperator]

/-- The depths of two sequences add up. -/
@[simp] lemma depth_append (l m : List Token) : depth (l ++ m) = depth l + depth m := by
  simp only [depth, List.countP_append]
  omega

/-- Only what the tokens are counts, not their order. -/
lemma depth_perm {l m : List Token} (h : l.Perm m) : depth l = depth m := by
  rw [depth, depth, h.countP_eq, h.countP_eq]

/-- The operators of a tree are one fewer than its numbers. -/
lemma Tree.depth_postorder (t : Tree) : depth t.postorder = 1 := by
  induction t with
  | number value => simp [postorder]
  | node op left right ihl ihr => simp [postorder, ihl, ihr]

end Calculator
