set_option autoImplicit false
set_option relaxedAutoImplicit false

/-!
# Operators

A function node names its operator by a 16-bit code. The first codes stand for operators with names;
the others are kept as they are, so that a host can still claim them with an implementation of its
own.

## Main definitions

* `Operator` — an operator with a name, or one that is nothing but a code.
* `Operator.names` — the names, in the order of their codes.
* `Operator.ofCode`, `Operator.code` — the operator of a code, and the code of an operator.
* `Operator.key`, `Operator.ofKey` — numbers for operators, in the order of their codes.
* `Operator.ofName?` — the operator that a name stands for, whatever its case.
* `Operator.text` — the name, or the code where there is none.
-/

namespace Inference

/-- The operator of a function node. -/
inductive Operator where
  /-- An operator with a name, by the place of the name in the list of names. -/
  | named (place : Fin 41)
  /-- An operator that is nothing but a code. A descriptor only has codes without a name here. A
  host may also put the code of a name here: this is another operator than the one with the name. -/
  | other (code : UInt16)
deriving DecidableEq

namespace Operator

/-- The names of the operators with codes 0, 1, 2, and so on. -/
def names : List String :=
  ["Affine", "Convolution", "DepthwiseConvolution", "Deconvolution", "DepthwiseDeconvolution",
   "MaxPooling", "AveragePooling", "GlobalAveragePooling", "SumPooling", "Unpooling",
   "Embed", "Sigmoid", "Swish", "Tanh", "ReLU", "LeakyReLU", "Softmax", "ELU", "SELU", "CReLU",
   "CELU", "PReLU", "BatchNormalization", "MeanSubtraction", "ClipGradByValue",
   "ClipGradByNorm", "Sum", "Mean", "Max", "Min", "Prod", "ReduceSum", "ReduceMean", "Add2",
   "BcAdd2", "Sub2", "Mul2", "Div2", "Pow2", "AddScalar", "MulScalar"]

/-! ## The operators with built-in implementations -/

/-- Fully connected transform. -/
def affine : Operator := .named 0

/-- Logistic function. -/
def sigmoid : Operator := .named 11

/-- Hyperbolic tangent. -/
def tanh : Operator := .named 13

/-- Rectified linear unit. -/
def relu : Operator := .named 14

/-- Rectified linear unit with a slope on the negative side. -/
def leakyRelu : Operator := .named 15

/-- Normalized exponentials along an axis. -/
def softmax : Operator := .named 16

/-- Sum of two variables. -/
def add2 : Operator := .named 33

/-- Difference of two variables. -/
def sub2 : Operator := .named 35

/-- Product of two variables. -/
def mul2 : Operator := .named 36

/-- Sum with a constant. -/
def addScalar : Operator := .named 39

/-- Product with a constant. -/
def mulScalar : Operator := .named 40

/-! ## Codes -/

/-- The operator that a code stands for. -/
def ofCode (code : UInt16) : Operator :=
  if h : code.toNat < 41 then .named ⟨code.toNat, h⟩ else .other code

/-- The code of an operator. -/
def code : Operator → UInt16
  | named place => UInt16.ofNat place
  | other code => code

/-- A number for each operator, in the order of the codes. An operator with a name comes before the
one that is nothing but the same code. -/
def key : Operator → Nat
  | named place => 2 * place
  | other code => 2 * code.toNat + 1

/-- The operator with a given number. -/
def ofKey (key : Nat) : Operator :=
  if key % 2 = 0 then .named (Fin.ofNat 41 (key / 2)) else .other (UInt16.ofNat (key / 2))

/-- The number of an operator leads back to it. -/
@[simp]
theorem ofKey_key (op : Operator) : ofKey op.key = op := by
  cases op with
  | named place =>
    have hplace : Fin.ofNat 41 (2 * place / 2) = place := by
      ext
      rw [Nat.mul_div_cancel_left _ (by omega)]
      exact Nat.mod_eq_of_lt place.isLt
    rw [key, ofKey, if_pos (by omega), hplace]
  | other code =>
    have hcode : (2 * code.toNat + 1) / 2 = code.toNat := by omega
    rw [key, ofKey, if_neg (by omega), hcode, UInt16.ofNat_toNat]

/-- Operators with the same number are the same. -/
theorem key_inj {op op' : Operator} : op.key = op'.key ↔ op = op' :=
  ⟨fun h => by rw [← ofKey_key op, h, ofKey_key], congrArg key⟩

/-- The code of the operator of a code. -/
@[simp]
theorem code_ofCode (code : UInt16) : (ofCode code).code = code := by
  unfold ofCode
  split
  · exact UInt16.ofNat_toNat
  · rfl

/-! ## Names -/

/-- The name of an operator, if it has one. -/
def name? : Operator → Option String
  | named place => some names[place]
  | other _ => none

/-- The name of an operator, or `Unknown`. -/
def name (op : Operator) : String :=
  op.name?.getD "Unknown"

/-- The name of an operator; one without a name is shown by its code. -/
def text (op : Operator) : String :=
  match op.name? with
  | some name => name
  | none => s!"Unknown({op.code})"

/-- The constructor-like form of an operator in diagnostics. -/
def diagnostic (op : Operator) : String :=
  match op.name? with
  | some name => name
  | none => s!"Other({op.code})"

/-- A name as it is compared: lower case, without underscores and hyphens. -/
def foldName (name : String) : List Char :=
  (name.toList.filter fun c => c != '_' && c != '-').map Char.toLower

/-- The operator with a given name. Case, underscores and hyphens do not count. -/
def ofName? (name : String) : Option Operator :=
  (names.findFinIdx? fun known => known.toList.map Char.toLower == foldName name).map .named

end Operator

end Inference
