import Mathlib.Data.List.Basic

/-!
# Nodes of a KEPUB document

What the nodes of `kepub/src/dom.rs` hold, apart from their links to each other.
-/

namespace Coppice.Kepub

/-- A stable index into an arena. -/
abbrev NodeId := Nat

structure QualName where
  nsPrefix : Option String
  ns : String
  localName : String
deriving DecidableEq, Repr

structure Attribute where
  name : QualName
  value : String
deriving DecidableEq, Repr

/-- The payload stored by one node. -/
inductive NodeKind where
  | document
  | doctype (name publicId systemId : String)
  | text (contents : String)
  | comment (contents : String)
  | processingInstruction (target data : String)
  | element (name : QualName) (attrs : List Attribute) (templateContents : Option NodeId)
      (mathmlAnnotationXmlIntegrationPoint : Bool)
deriving DecidableEq, Repr

end Coppice.Kepub
