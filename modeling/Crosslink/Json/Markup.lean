import Crosslink.Json.Basic
import Crosslink.Markup.Block

/-!
# Markup as JSON

How blocks, spans and diagnostics are written. A node of several kinds is
an object whose first field names the kind; paths are written as text; what
is absent is null.
-/

namespace Crosslink

open Json (natural optional)

/-! ## Parts -/

def FootnoteLabel.toJson : FootnoteLabel → Json
  | .autonumber => .object [("kind", .text "autonumber")]
  | .labelled label =>
    .object [("kind", .text "autonumber_label"), ("label", .text label)]
  | .autosymbol => .object [("kind", .text "autosymbol")]
  | .numeric number =>
    .object [("kind", .text "numeric"), ("number", natural number)]

def AbsolutePath.toJson (p : AbsolutePath) : Json := .text p.toText

def RelativePath.toJson (p : RelativePath) : Json := .text p.toText

def WrittenPath.toJson (p : WrittenPath) : Json := .text p.toText

/-- A final destination. -/
def Target.toJson : Target → Json
  | .external url => .object [("kind", .text "external"), ("url", .text url)]
  | .internal target =>
    .object
      [("kind", .text "internal"), ("absolute", target.absolute.toJson),
       ("external_url", optional .text target.externalUrl),
       ("relative", target.relative.toJson)]

def DefinitionTarget.toJson : DefinitionTarget → Json
  | .external url => .object [("kind", .text "external"), ("url", .text url)]
  | .internal path =>
    .object [("kind", .text "internal"), ("path", path.toJson)]

def Decoration.toJson (d : Decoration) : Json :=
  .object
    [("overline", .bool d.overline),
     ("symbol", .text (String.ofList [d.symbol]))]

def ProblemKind.toJson (k : ProblemKind) : Json := .text k.name

def Diagnostic.toJson (d : Diagnostic) : Json :=
  .object
    [("kind", d.problem.kind.toJson), ("message", .text d.problem.message),
     ("path", d.path.toJson)]

/-! ## Spans -/

mutual

def Span.toJson : Span → Json
  | .text text => .object [("type", .text "text"), ("text", .text text)]
  | .literal text => .object [("type", .text "literal"), ("text", .text text)]
  | .emphasized content =>
    .object
      [("type", .text "emphasized"), ("content", .array (Spans.toJson content))]
  | .strong content =>
    .object
      [("type", .text "strong"), ("content", .array (Spans.toJson content))]
  | .verbatim kind content =>
    .object
      [("type", .text "opaque"), ("content", .text content),
       ("kind", .text kind)]
  | .reference kind source =>
    .object
      [("type", .text "reference"), ("kind", kind.toJson),
       ("source", .text source)]
  | .link content target title =>
    .object
      [("type", .text "link"), ("content", .array (Spans.toJson content)),
       ("target", target.toJson), ("title", optional .text title)]
  | .image alt target title =>
    .object
      [("type", .text "image"), ("alt", .text alt),
       ("target", target.toJson), ("title", optional .text title)]
  | .citationLink label reference =>
    .object
      [("type", .text "citation_link"), ("label", .text label),
       ("reference", .text reference)]
  | .footnoteLink id label =>
    .object
      [("type", .text "footnote_link"), ("id", .text id),
       ("label", .text label)]
  | .invalid fallback problem =>
    .object
      [("type", .text "invalid"), ("fallback", fallback.toJson),
       ("kind", problem.kind.toJson), ("message", .text problem.message)]

def ReferenceKind.toJson : ReferenceKind → Json
  | .citation label =>
    .object [("reference", .text "citation"), ("label", .text label)]
  | .footnote label =>
    .object [("reference", .text "footnote"), ("label", label.toJson)]
  | .imageId alt id =>
    .object
      [("reference", .text "image_id"), ("alt", .text alt), ("id", .text id)]
  | .imagePath alt path title =>
    .object
      [("reference", .text "image_path"), ("alt", .text alt),
       ("path", path.toJson), ("title", optional .text title)]
  | .linkId content id =>
    .object
      [("reference", .text "link_id"),
       ("content", .array (Spans.toJson content)), ("id", .text id)]
  | .linkPath content path title =>
    .object
      [("reference", .text "link_path"),
       ("content", .array (Spans.toJson content)), ("path", path.toJson),
       ("title", optional .text title)]

def Spans.toJson : List Span → List Json
  | [] => []
  | span :: spans => span.toJson :: Spans.toJson spans

end

/-! ## Blocks -/

def Header.jsonFields (h : Header) : List (String × Json) :=
  [("content", .array (Spans.toJson h.content)),
   ("id", optional .text h.id), ("level", natural h.level)]

def Title.jsonFields (t : Title) : List (String × Json) :=
  [("content", .array (Spans.toJson t.content)), ("id", optional .text t.id)]

def LinkDefinition.jsonFields (d : LinkDefinition) : List (String × Json) :=
  [("id", .text d.id), ("target", d.target.toJson),
   ("title", optional .text d.title)]

/-- An object that names its kind first. -/
def tagged (kind : String) (fields : List (String × Json)) : Json :=
  .object (("type", .text kind) :: fields)

mutual

def Block.toJson : Block → Json
  | .paragraph content =>
    tagged "paragraph" [("content", .array (Spans.toJson content))]
  | .codeBlock code language =>
    tagged "code_block"
      [("code", .text code), ("language", optional .text language)]
  | .rule => tagged "rule" []
  | .verbatim kind content =>
    tagged "opaque" [("content", .text content), ("kind", .text kind)]
  | .header header => tagged "header" header.jsonFields
  | .decoratedHeader header =>
    tagged "decorated_header"
      [("content", .array (Spans.toJson header.content)),
       ("decoration", header.decoration.toJson),
       ("id", optional .text header.id)]
  | .title title => tagged "title" title.jsonFields
  | .sectionOf header content =>
    tagged "section"
      [("content", .array (Blocks.toJson content)),
       ("header", .object header.jsonFields)]
  | .quoted content =>
    tagged "quoted_block" [("content", .array (Blocks.toJson content))]
  | .anchor id => tagged "internal_link_target" [("id", .text id)]
  | .linkDefinition definition =>
    tagged "link_definition" definition.jsonFields
  | .linkAlias indirection =>
    tagged "link_alias"
      [("id", .text indirection.id), ("target", .text indirection.target)]
  | .citation label id content =>
    tagged "citation"
      [("content", .array (Blocks.toJson content)), ("id", optional .text id),
       ("label", .text label)]
  | .footnoteDefinition label content =>
    tagged "footnote_definition"
      [("content", .array (Blocks.toJson content)), ("label", label.toJson)]
  | .footnote id label content =>
    tagged "footnote"
      [("content", .array (Blocks.toJson content)), ("id", .text id),
       ("label", .text label)]
  | .reference kind source =>
    tagged "reference" [("kind", kind.toJson), ("source", .text source)]
  | .invalid fallback problem =>
    tagged "invalid"
      [("fallback", fallback.toJson), ("kind", problem.kind.toJson),
       ("message", .text problem.message)]

def Blocks.toJson : List Block → List Json
  | [] => []
  | block :: blocks => block.toJson :: Blocks.toJson blocks

end

end Crosslink
