import Reconciliation.Text.Quoted

namespace Reconciliation

/-!
# Identifiers

Texts that name things, told apart by what they name:

* `Name` — an object within a namespace;
* `Namespace` — a namespace;
* `ResourceVersion` — the token that a store assigns on every write;
* `Uid` — one incarnation of an object.

Names, namespaces and versions are ordered as texts are, by their code points.  Each is shown as its
text in quotation marks, tagged with what it names.
-/

/-- The name of an object. -/
structure Name where
  text : String
deriving DecidableEq, Repr, Inhabited

/-- A namespace that objects live in. -/
structure Namespace where
  text : String
deriving DecidableEq, Repr, Inhabited

/-- An opaque token that changes with every write. -/
structure ResourceVersion where
  text : String
deriving DecidableEq, Repr, Inhabited

/-- The identity of one incarnation of an object. -/
structure Uid where
  text : String
deriving DecidableEq, Repr, Inhabited

namespace Name

/-- The name as it is shown. -/
def outline (name : Name) : Text.Outline := .tagged "Name" (.word (Text.quoted name.text))

instance : Ord Name := ⟨compareOn Name.text⟩

instance : Std.TransOrd Name := inferInstanceAs (Std.TransCmp (compareOn Name.text))

instance : Std.LawfulEqOrd Name where
  eq_of_compare {a b} h := by
    cases a; cases b
    exact congrArg Name.mk (Std.LawfulEqOrd.eq_of_compare h)

end Name

namespace Namespace

/-- The namespace as it is shown. -/
def outline (scope : Namespace) : Text.Outline :=
  .tagged "Namespace" (.word (Text.quoted scope.text))

instance : Ord Namespace := ⟨compareOn Namespace.text⟩

instance : Std.TransOrd Namespace := inferInstanceAs (Std.TransCmp (compareOn Namespace.text))

instance : Std.LawfulEqOrd Namespace where
  eq_of_compare {a b} h := by
    cases a; cases b
    exact congrArg Namespace.mk (Std.LawfulEqOrd.eq_of_compare h)

end Namespace

/-- The version as it is shown. -/
def ResourceVersion.outline (version : ResourceVersion) : Text.Outline :=
  .tagged "ResourceVersion" (.word (Text.quoted version.text))

instance : Ord ResourceVersion := ⟨compareOn ResourceVersion.text⟩

/-- The identity as it is shown. -/
def Uid.outline (uid : Uid) : Text.Outline := .tagged "Uid" (.word (Text.quoted uid.text))

end Reconciliation
