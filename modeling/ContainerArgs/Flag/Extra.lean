/-!
# Extra tokens

Tokens that are passed on as they are, in the order in which they were added.
-/

namespace ContainerArgs.Flag

/-- A list of extra tokens. -/
structure Extra where
  tokens : List String
deriving DecidableEq, Repr

namespace Extra

def empty : Extra := ⟨[]⟩

instance : Inhabited Extra := ⟨empty⟩

def add (e : Extra) (tokens : List String) : Extra :=
  ⟨e.tokens ++ tokens⟩

/-- The list with one token added at its end. -/
def push (e : Extra) (token : String) : Extra :=
  e.add [token]

/-- The list without its tokens. -/
def clear (_ : Extra) : Extra :=
  empty

def size (e : Extra) : Nat :=
  e.tokens.length

/-- Whether there are no tokens. -/
def isEmpty (e : Extra) : Bool :=
  e.tokens.isEmpty

/-- An edit of a list of extra tokens. -/
inductive Edit where
  | add (tokens : List String)
  | push (token : String)
  | clear
deriving DecidableEq, Repr

def apply (e : Extra) : Edit → Extra
  | .add tokens => e.add tokens
  | .push token => e.push token
  | .clear => e.clear

@[simp] theorem tokens_add (e : Extra) (tokens : List String) :
    (e.add tokens).tokens = e.tokens ++ tokens := rfl

@[simp] theorem tokens_push (e : Extra) (token : String) :
    (e.push token).tokens = e.tokens ++ [token] := rfl

@[simp] theorem tokens_clear (e : Extra) :
    e.clear.tokens = [] := rfl

end Extra

end ContainerArgs.Flag
