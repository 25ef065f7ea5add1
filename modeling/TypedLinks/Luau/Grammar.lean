import TypedLinks.Grammar.Ebnf
import TypedLinks.Luau.Terminal

/-!
# The grammar of Luau

Statements, expressions and types of Luau. Operator chains stay flat, since only the extent of an
expression matters here. White space and comments are no tokens.

The words `type`, `export`, `continue`, `read` and `write` are names as well, so the grammar is
ambiguous in places; the parser always shifts a token that it can shift, and `continue` at the end
of a block is a statement rather than a variable.
-/

namespace TypedLinks.Luau

open Grammar

/-- The categories of the grammar. The last group are series: one or more of something. -/
inductive Category where
  | chunk | block | statement | lastStatement | continueStatement | assignmentTargets
  | elseifClause | elseClause | bindingList | binding | attribute | attributeEntry | functionName
  | functionBody | parameterList | variadicParameter
  | expressionList | expression | binaryOperator | unaryExpression | unaryOperator | typeAssertion
  | simpleExpression | elseifExpression | literal | string | suffixedExpression | primaryExpression
  | nameExpression | typeInstantiation | callArguments | tableConstructor | tableField | fieldName
  | fieldSeparator
  | type | typeOperator | postfixType | simpleType | typeReference | typeArguments | typeList
  | typeListItem | typeOrPack | tableType | tableTypeField | access | propertyName
  | genericParameters | genericParameterList | genericParameter
  | statements | furtherTargets | elseifClauses | furtherBindings | attributes
  | furtherAttributeEntries | nameSuffixes | furtherExpressions | operations | assertions
  | elseifExpressions | furtherTypesOrPacks | furtherFields | furtherMembers | furtherListItems
  | furtherTypeFields | furtherGenericParameters
  deriving DecidableEq, Repr

/-- What a production builds from its parts. -/
inductive Construct where
  /-- Nothing of its own: its parts join those of the production around it. -/
  | spliced
  | block | statement | callStatement | localAssignment | typeDeclaration | typeFunction
  | returnStatement | bindingList | binding
  | expressionList | operatorChain | unaryOperation | typeAssertion | literal | string
  | interpolatedString | table | function | ifExpression
  | name | parenthesized | fieldIndex | keyIndex | instantiation | call | methodCall
  | parenthesizedArguments | tableArguments | stringArguments | typeInstantiation
  | unionType | optionalType | nilType | singletonType | typeofType | tableType | parenthesizedType
  | functionType | typeReference | typeArguments | typeList | variadicType | genericPack
  | genericParameterList | genericParameter | genericPackParameter
  deriving DecidableEq, Repr

/-! ## Right-hand sides -/

/-- The right-hand side of a rule. -/
abbrev Side := Ebnf Terminal Category

namespace Side

/-- A token. -/
def t (terminal : Terminal) : Side := .token terminal

/-- A category. -/
def n (category : Category) : Side := .category category

/-- A part that may be left out. -/
def opt (side : Side) : Side := .optional side

/-- One token out of several. -/
def words (first : Terminal) (others : List Terminal) : Side :=
  .oneOf (t first) (others.map t)

end Side

open Side

/-! ## Rules -/

/-- The alternatives of a statement. -/
def statementRules : List (Construct × Side) :=
  [(.statement, n .assignmentTargets ++ t .equals ++ n .expressionList),
    (.statement, n .suffixedExpression ++ t .compound ++ n .expression),
    (.callStatement, n .suffixedExpression),
    (.statement, t .kwDo ++ n .block ++ t .kwEnd),
    (.statement, t .kwWhile ++ n .expression ++ t .kwDo ++ n .block ++ t .kwEnd),
    (.statement, t .kwRepeat ++ n .block ++ t .kwUntil ++ n .expression),
    (.statement, t .kwIf ++ n .expression ++ t .kwThen ++ n .block ++ opt (n .elseifClauses) ++
      opt (n .elseClause) ++ t .kwEnd),
    (.statement, t .kwFor ++ n .binding ++ t .equals ++ n .expression ++ t .comma ++
      n .expression ++ opt (t .comma ++ n .expression) ++ t .kwDo ++ n .block ++ t .kwEnd),
    (.statement, t .kwFor ++ n .bindingList ++ t .kwIn ++ n .expressionList ++ t .kwDo ++
      n .block ++ t .kwEnd),
    (.statement, opt (n .attributes) ++ t .kwFunction ++ n .functionName ++ n .functionBody),
    (.statement, opt (n .attributes) ++ t .kwLocal ++ t .kwFunction ++ t .name ++
      n .functionBody),
    (.localAssignment, t .kwLocal ++ n .bindingList ++ opt (t .equals ++ n .expressionList)),
    (.typeDeclaration, opt (t .kwExport) ++ t .kwType ++ t .name ++ opt (n .genericParameters) ++
      t .equals ++ n .type),
    (.typeDeclaration, opt (t .kwExport) ++ t .kwType ++ t .name ++ t .less ++
      n .genericParameterList ++ t .greaterEqual ++ n .type),
    (.typeFunction, opt (t .kwExport) ++ t .kwType ++ t .kwFunction ++ t .name ++
      n .functionBody)]

/-- The rule that defines a category. -/
def rule : Category → Rule Terminal Category Construct
  | .chunk => .choice [(.spliced, n .block)]
  | .block => .choice [(.block, opt (n .statements) ++ opt (n .lastStatement))]
  | .statement => .choice statementRules
  | .lastStatement => .choice
      [(.returnStatement, t .kwReturn ++ opt (n .expressionList) ++ opt (t .semicolon)),
        (.statement, t .kwBreak ++ opt (t .semicolon)),
        (.spliced, n .continueStatement ++ opt (t .semicolon))]
  | .continueStatement => .choice [(.statement, t .kwContinue)]
  | .assignmentTargets => .choice [(.spliced, n .suffixedExpression ++ opt (n .furtherTargets))]
  | .elseifClause => .choice
      [(.spliced, t .kwElseif ++ n .expression ++ t .kwThen ++ n .block)]
  | .elseClause => .choice [(.spliced, t .kwElse ++ n .block)]
  | .bindingList => .choice [(.bindingList, n .binding ++ opt (n .furtherBindings))]
  | .binding => .choice [(.binding, t .name ++ opt (t .colon ++ n .type))]
  | .attribute => .choice
      [(.spliced, t .atSign ++ t .name),
        (.spliced, t .atSign ++ t .leftBracket ++ n .attributeEntry ++
          opt (n .furtherAttributeEntries) ++ t .rightBracket)]
  | .attributeEntry => .choice [(.spliced, t .name ++ opt (n .callArguments))]
  | .functionName => .choice
      [(.spliced, t .name ++ opt (n .nameSuffixes) ++ opt (t .colon ++ t .name))]
  | .functionBody => .choice
      [(.spliced, opt (n .genericParameters) ++ t .leftParen ++ opt (n .parameterList) ++
        t .rightParen ++ opt (t .colon ++ n .typeOrPack) ++ n .block ++ t .kwEnd)]
  | .parameterList => .choice
      [(.spliced, n .binding ++ opt (n .furtherBindings) ++
          opt (t .comma ++ n .variadicParameter)),
        (.spliced, n .variadicParameter)]
  | .variadicParameter => .choice [(.spliced, t .ellipsis ++ opt (t .colon ++ n .typeOrPack))]
  | .expressionList => .choice [(.expressionList, n .expression ++ opt (n .furtherExpressions))]
  | .expression => .choice
      [(.operatorChain, n .unaryExpression ++ n .operations), (.spliced, n .unaryExpression)]
  | .binaryOperator => .choice
      [(.spliced, words .plus [.minus, .star, .slash, .doubleSlash, .percent, .caret, .concat,
        .doubleEquals, .notEqual, .less, .lessEqual, .greater, .greaterEqual, .kwAnd, .kwOr])]
  | .unaryExpression => .choice
      [(.unaryOperation, n .unaryOperator ++ n .unaryExpression), (.spliced, n .typeAssertion)]
  | .unaryOperator => .choice [(.spliced, words .kwNot [.minus, .hash])]
  | .typeAssertion => .choice
      [(.typeAssertion, n .simpleExpression ++ n .assertions), (.spliced, n .simpleExpression)]
  | .simpleExpression => .choice
      [(.spliced, n .literal), (.spliced, n .string), (.interpolatedString, t .interpolated),
        (.spliced, n .tableConstructor),
        (.function, opt (n .attributes) ++ t .kwFunction ++ n .functionBody),
        (.ifExpression, t .kwIf ++ n .expression ++ t .kwThen ++ n .expression ++
          opt (n .elseifExpressions) ++ t .kwElse ++ n .expression),
        (.spliced, n .suffixedExpression)]
  | .elseifExpression => .choice
      [(.spliced, t .kwElseif ++ n .expression ++ t .kwThen ++ n .expression)]
  | .literal => .choice [(.literal, words .number [.kwNil, .kwTrue, .kwFalse, .ellipsis])]
  | .string => .choice [(.string, t .quoted)]
  | .suffixedExpression => .choice
      [(.spliced, n .primaryExpression),
        (.fieldIndex, n .suffixedExpression ++ t .dot ++ t .name),
        (.keyIndex, n .suffixedExpression ++ t .leftBracket ++ n .expression ++ t .rightBracket),
        (.instantiation, n .suffixedExpression ++ n .typeInstantiation),
        (.call, n .suffixedExpression ++ n .callArguments),
        (.methodCall, n .suffixedExpression ++ t .colon ++ t .name ++
          opt (n .typeInstantiation) ++ n .callArguments)]
  | .primaryExpression => .choice
      [(.spliced, n .nameExpression),
        (.parenthesized, t .leftParen ++ n .expression ++ t .rightParen)]
  | .nameExpression => .choice [(.name, words .name [.kwType, .kwExport, .kwContinue])]
  | .typeInstantiation => .choice
      [(.typeInstantiation, t .doubleLess ++ n .typeOrPack ++ opt (n .furtherTypesOrPacks) ++
        t .greater ++ t .greater)]
  | .callArguments => .choice
      [(.parenthesizedArguments, t .leftParen ++ opt (n .expressionList) ++ t .rightParen),
        (.tableArguments, n .tableConstructor), (.stringArguments, n .string)]
  | .tableConstructor => .choice
      [(.table, t .leftBrace ++ opt (n .tableField ++ opt (n .furtherFields) ++
        opt (n .fieldSeparator)) ++ t .rightBrace)]
  | .tableField => .choice
      [(.spliced, t .leftBracket ++ n .expression ++ t .rightBracket ++ t .equals ++
          n .expression),
        (.spliced, n .fieldName ++ t .equals ++ n .expression), (.spliced, n .expression)]
  | .fieldName => .choice [(.spliced, words .name [.kwType, .kwExport, .kwContinue])]
  | .fieldSeparator => .choice [(.spliced, words .comma [.semicolon])]
  | .type => .choice
      [(.spliced, n .postfixType), (.unionType, n .postfixType ++ n .furtherMembers),
        (.unionType, n .typeOperator ++ n .postfixType ++ opt (n .furtherMembers))]
  | .typeOperator => .choice [(.spliced, words .bar [.ampersand])]
  | .postfixType => .choice
      [(.spliced, n .simpleType), (.optionalType, n .postfixType ++ t .question)]
  | .simpleType => .choice
      [(.spliced, n .typeReference), (.nilType, t .kwNil), (.singletonType, t .quoted),
        (.singletonType, t .kwTrue), (.singletonType, t .kwFalse),
        (.typeofType, t .kwTypeof ++ t .leftParen ++ n .expression ++ t .rightParen),
        (.spliced, n .tableType),
        (.parenthesizedType, t .leftParen ++ opt (n .typeList) ++ t .rightParen),
        (.functionType, t .leftParen ++ opt (n .typeList) ++ t .rightParen ++ t .arrow ++
          n .typeOrPack),
        (.functionType, n .genericParameters ++ t .leftParen ++ opt (n .typeList) ++
          t .rightParen ++ t .arrow ++ n .typeOrPack)]
  | .typeReference => .choice
      [(.typeReference, t .name ++ opt (n .typeArguments)),
        (.typeReference, t .name ++ t .dot ++ t .name ++ opt (n .typeArguments))]
  | .typeArguments => .choice
      [(.typeArguments, t .less ++ opt (n .typeOrPack ++ opt (n .furtherTypesOrPacks)) ++
        t .greater)]
  | .typeList => .choice [(.typeList, n .typeListItem ++ opt (n .furtherListItems))]
  | .typeListItem => .choice
      [(.spliced, t .name ++ t .colon ++ n .typeOrPack), (.spliced, n .typeOrPack)]
  | .typeOrPack => .choice
      [(.spliced, n .type), (.variadicType, t .ellipsis ++ n .type),
        (.genericPack, t .name ++ t .ellipsis)]
  | .tableType => .choice
      [(.tableType, t .leftBrace ++ t .rightBrace),
        (.tableType, t .leftBrace ++ n .type ++ t .rightBrace),
        (.tableType, t .leftBrace ++ n .tableTypeField ++ opt (n .furtherTypeFields) ++
          opt (n .fieldSeparator) ++ t .rightBrace)]
  | .tableTypeField => .choice
      [(.spliced, opt (n .access) ++ t .leftBracket ++ n .type ++ t .rightBracket ++ t .colon ++
          n .type),
        (.spliced, opt (n .access) ++ n .propertyName ++ t .colon ++ n .type)]
  | .access => .choice [(.spliced, words .kwRead [.kwWrite])]
  | .propertyName => .choice [(.spliced, words .name [.kwRead, .kwWrite])]
  | .genericParameters => .choice
      [(.spliced, t .less ++ n .genericParameterList ++ t .greater)]
  | .genericParameterList => .choice
      [(.genericParameterList, n .genericParameter ++ opt (n .furtherGenericParameters))]
  | .genericParameter => .choice
      [(.genericParameter, t .name ++ opt (t .equals ++ n .typeOrPack)),
        (.genericPackParameter, t .name ++ t .ellipsis ++ opt (t .equals ++ n .typeOrPack))]
  | .statements => .series (n .statement ++ opt (t .semicolon))
  | .furtherTargets => .series (t .comma ++ n .suffixedExpression)
  | .elseifClauses => .series (n .elseifClause)
  | .furtherBindings => .series (t .comma ++ n .binding)
  | .attributes => .series (n .attribute)
  | .furtherAttributeEntries => .series (t .comma ++ n .attributeEntry)
  | .nameSuffixes => .series (t .dot ++ t .name)
  | .furtherExpressions => .series (t .comma ++ n .expression)
  | .operations => .series (n .binaryOperator ++ n .unaryExpression)
  | .assertions => .series (t .doubleColon ++ n .type)
  | .elseifExpressions => .series (n .elseifExpression)
  | .furtherTypesOrPacks => .series (t .comma ++ n .typeOrPack)
  | .furtherFields => .series (n .fieldSeparator ++ n .tableField)
  | .furtherMembers => .series (n .typeOperator ++ n .postfixType)
  | .furtherListItems => .series (t .comma ++ n .typeListItem)
  | .furtherTypeFields => .series (n .fieldSeparator ++ n .tableTypeField)
  | .furtherGenericParameters => .series (t .comma ++ n .genericParameter)

/-- The productions of a category. -/
def productions (c : Category) : List (Production Terminal Category Construct) :=
  (rule c).productions .spliced c

end TypedLinks.Luau
