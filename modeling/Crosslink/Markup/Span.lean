import Crosslink.Problem

/-!
# Inline nodes

The text of a document is a sequence of spans. A markup reader produces
plain and marked-up text together with references, which say what they
point at (`ReferenceKind`) and how they were written. Resolution replaces
a reference by a link, an image, a citation or footnote link, or by an
invalid span that keeps the reference as its fallback.
-/

namespace Crosslink

/-- How a footnote is labelled and numbered. -/
inductive FootnoteLabel where
  | autonumber
  | labelled (label : String)
  | autosymbol
  | numeric (number : Nat)
deriving Repr, DecidableEq

/-- Written footnote numbers are below this: they fit into 32 bits. -/
def FootnoteLabel.numberLimit : Nat := 4294967296

/-- A final destination inside the tree. -/
structure InternalTarget where
  absolute : AbsolutePath
  externalUrl : Option String
  relative : RelativePath
deriving Repr, DecidableEq

/-- A final destination of a link or an image. -/
inductive Target where
  | external (url : String)
  | internal (target : InternalTarget)
deriving Repr, DecidableEq

mutual

/-- An inline node. -/
inductive Span where
  | text (text : String)
  | literal (text : String)
  | emphasized (content : List Span)
  | strong (content : List Span)
  | verbatim (kind : String) (content : String)
  | reference (kind : ReferenceKind) (source : String)
  | link (content : List Span) (target : Target) (title : Option String)
  | image (alt : String) (target : Target) (title : Option String)
  | citationLink (label : String) (reference : String)
  | footnoteLink (id : String) (label : String)
  | invalid (fallback : Span) (problem : Problem)

/-- What a reference points at; an empty id stands for an anonymous
reference. -/
inductive ReferenceKind where
  | citation (label : String)
  | footnote (label : FootnoteLabel)
  | imageId (alt : String) (id : String)
  | imagePath (alt : String) (path : WrittenPath) (title : Option String)
  | linkId (content : List Span) (id : String)
  | linkPath (content : List Span) (path : WrittenPath) (title : Option String)

end

instance : Inhabited Span := ⟨.text ""⟩

/-! ## Plain text -/

mutual

/-- The text of a span without its markup. A reference counts with its
source, an invalid span with its fallback. -/
def Span.plainText : Span → String
  | .text text => text
  | .literal text => text
  | .emphasized content => Spans.plainText content
  | .strong content => Spans.plainText content
  | .verbatim _ content => content
  | .reference _ source => source
  | .link content _ _ => Spans.plainText content
  | .image alt _ _ => alt
  | .citationLink label _ => label
  | .footnoteLink _ label => label
  | .invalid fallback _ => fallback.plainText

def Spans.plainText : List Span → String
  | [] => ""
  | span :: spans => span.plainText ++ Spans.plainText spans

end

end Crosslink
