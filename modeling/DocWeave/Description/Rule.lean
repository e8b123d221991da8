import DocWeave.Node.Basic

/-!
# Rules for elements

Only the element names listed here may stand in a description. A name outside the list is an error, so
a change of the description format is noticed instead of spoiling a page.

- `Rule`: what becomes of an element.
- `Rule.ofName?`: the rule for an element name.
-/

namespace DocWeave.Description

/-- What becomes of an element. -/
inductive Rule where
  /-- A node of a kind, around the nodes of the children. -/
  | rename (kind : Kind)
  /-- The node of the first child: for tokens that add no level of their own. -/
  | collapse
  /-- The nodes of the children between parentheses, separated by commas, in a span. -/
  | parameterList
  /-- A span that holds the nodes of the children in one emphasis. -/
  | fieldName
  /-- Nothing. The reference of a `target` still names the node after it. -/
  | skip
  /-- A block whose titles are one level deeper. -/
  | sectionBlock
  /-- A heading as deep as the sections around it. -/
  | title
  /-- A paragraph that holds the nodes of the children in one strong node. -/
  | rubric
  /-- An admonition. -/
  | admonition (kind : Admonition)
  /-- A link if the element has an address, a span otherwise. -/
  | reference
deriving Repr, DecidableEq

/-- The element names that may stand in a description, with their rules. -/
def rules : List (String × Rule) :=
  [ -- structure of a description
   ("desc", .rename .block),
   ("desc_signature", .rename .paragraph),
   ("desc_signature_line", .rename .span),
   ("desc_content", .rename .block),
   ("desc_name", .rename .strong),
   ("desc_addname", .rename .span),
   ("desc_annotation", .rename .emphasis),
   ("desc_returns", .rename .span),
   ("desc_type", .rename .span),
   ("desc_optional", .rename .span),
   ("desc_parameterlist", .parameterList),
   ("desc_parameter", .rename .span),
   -- tokens of a signature
   ("desc_sig_name", .rename .emphasis),
   ("desc_sig_space", .collapse),
   ("desc_sig_punctuation", .collapse),
   ("desc_sig_operator", .collapse),
   ("desc_sig_keyword", .rename .span),
   ("desc_sig_keyword_type", .rename .span),
   ("desc_sig_literal_number", .rename .span),
   ("desc_sig_literal_string", .rename .span),
   ("desc_sig_literal_char", .rename .span),
   -- markup that does not show
   ("index", .skip),
   ("target", .skip),
   ("comment", .skip),
   ("substitution_definition", .skip),
   -- field lists
   ("field_list", .rename .list),
   ("field", .rename .listItem),
   ("field_name", .fieldName),
   ("field_body", .rename .block),
   -- sections
   ("section", .sectionBlock),
   ("title", .title),
   ("rubric", .rubric),
   -- admonitions
   ("attention", .admonition .attention),
   ("caution", .admonition .caution),
   ("danger", .admonition .danger),
   ("error", .admonition .error),
   ("hint", .admonition .hint),
   ("important", .admonition .important),
   ("note", .admonition .note),
   ("tip", .admonition .tip),
   ("warning", .admonition .warning),
   -- body elements
   ("paragraph", .rename .paragraph),
   ("block_quote", .rename .block),
   ("literal_block", .rename .code),
   ("doctest_block", .rename .code),
   ("bullet_list", .rename .list),
   ("enumerated_list", .rename .list),
   ("list_item", .rename .listItem),
   ("definition_list", .rename .list),
   ("definition_list_item", .rename .listItem),
   ("term", .rename .strong),
   ("classifier", .rename .emphasis),
   ("definition", .rename .block),
   ("line_block", .rename .block),
   ("line", .rename .paragraph),
   -- inline elements
   ("emphasis", .rename .emphasis),
   ("strong", .rename .strong),
   ("literal", .rename .inlineCode),
   ("literal_emphasis", .rename .emphasis),
   ("literal_strong", .rename .strong),
   ("inline", .rename .span),
   ("reference", .reference),
   ("pending_xref", .rename .span),
   ("title_reference", .rename .span)]

/-- The rule for an element name, if the name is known. -/
def Rule.ofName? (name : String) : Option Rule :=
  rules.lookup name

end DocWeave.Description
