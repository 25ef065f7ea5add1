import TypedLinks.Luau.Automaton.State

/-!
# States entered by a token

The states of the parsing automaton that a shift leads to, for each terminal.
-/

namespace TypedLinks.Luau

/-- The states entered by shifting a token. -/
def afterToken : Terminal → List State
  | .kwAnd =>
    [⟨1, 0x10000000000000000000000000001000000000000000000000000000000000000000000000000000000000000000000000000000000000000,
        [⟨.binaryOperator, 14, 1⟩], [⟨.binaryOperator, .spliced, 1, 0x78440011090c19b08⟩]⟩]
  | .kwBreak =>
    [⟨2, 0x40001620000000000000000000000000000000000000000000000000000000000000000000000000000001320000005400000000000fc1,
        [⟨.lastStatement, 4, 1⟩, ⟨.lastStatement, 5, 1⟩],
        [⟨.lastStatement, .statement, 1, 0x20000e1⟩]⟩]
  | .kwContinue =>
    [⟨3, 0x40001620000000000000000000000000000000000000000000000000000000000000000000000000000001320000005400000000000fc1,
        [⟨.continueStatement, 0, 1⟩, ⟨.nameExpression, 3, 1⟩],
        [⟨.continueStatement, .statement, 1, 0x2000020000e1⟩,
         ⟨.nameExpression, .name, 1, 0x544c2884884985d1c⟩]⟩,
      ⟨4, 0x10c00000000000000000000000000008000005000105c000000000002108580008c180a80380000000f000,
        [⟨.nameExpression, 3, 1⟩], [⟨.nameExpression, .name, 1, 0x537dffedfa6ba5dff⟩]⟩,
      ⟨5, 0x140000000000000000000000000000000000000001000000000000000000000000000000000000000000000000000,
        [⟨.nameExpression, 3, 1⟩, ⟨.fieldName, 3, 1⟩],
        [⟨.nameExpression, .name, 1, 0x4369dfedea0020002⟩,
         ⟨.fieldName, .spliced, 1, 0x2000000000000⟩]⟩]
  | .kwDo =>
    [⟨6, 0x40001620000000000000000000000000000000000000000000000000000000000000000000000000000001320000005400000000000fc1,
        [⟨.statement, 3, 1⟩], [⟨.block, .block, 0, 0x80⟩]⟩,
      ⟨7, 0x1000000000000000000000000000000000000000000000000000000000000000000000000000000,
        [⟨.statement, 4, 3⟩], [⟨.block, .block, 0, 0x80⟩]⟩,
      ⟨8, 0x100000000000000000000000000000000000000000000000000000000000000000000000000000,
        [⟨.statement, 12, 5⟩], [⟨.block, .block, 0, 0x80⟩]⟩,
      ⟨9, 0x4000000000000000000000000000000000000000000000000000000000000000000000000000000000,
        [⟨.statement, 11, 7⟩], [⟨.block, .block, 0, 0x80⟩]⟩,
      ⟨10, 0x80000000000000000000000000000000000000000000000000000000000000000000000000000000000,
        [⟨.statement, 10, 9⟩], [⟨.block, .block, 0, 0x80⟩]⟩]
  | .kwElse =>
    [⟨11, 0x100000000000000000000000000000000000000000000002000000000000000000000000000000000000000000000000000000000000000,
        [⟨.elseClause, 0, 1⟩], [⟨.block, .block, 0, 0x80⟩]⟩,
      ⟨12, 0x1000000000000000000000000000000000000000000000000000000000000000000000000000000000,
        [⟨.simpleExpression, 7, 5⟩], []⟩,
      ⟨13, 0x40000000000000000000000000000000000000000000000000000000000000000000000000000000000000000000000000000000000000000,
        [⟨.simpleExpression, 6, 6⟩], []⟩]
  | .kwElseif =>
    [⟨14, 0x100000000000000000000000000000000000000000000002000000000000000000000000000000000000000000000000000000000000000,
        [⟨.elseifClause, 0, 1⟩], []⟩,
      ⟨15, 0x40000000000000000000000000000001000000000000000000000000000000000000000000000000000000000000000000000000000000000,
        [⟨.elseifExpression, 0, 1⟩], []⟩]
  | .kwEnd =>
    [⟨16, 0x800000000000000000000000000000000000000000000000000000000000000,
        [⟨.statement, 3, 3⟩], [⟨.statement, .statement, 3, 0x10040200086985dfd⟩]⟩,
      ⟨17, 0x2000000000000000000000000000000000000000000000000000000000000000,
        [⟨.statement, 9, 5⟩], [⟨.statement, .statement, 5, 0x10040200086985dfd⟩]⟩,
      ⟨18, 0x4000000000000000000000000000000000000000000000000000000000000000,
        [⟨.statement, 4, 5⟩], [⟨.statement, .statement, 5, 0x10040200086985dfd⟩]⟩,
      ⟨19, 0x8000000000000000000000000000000000000000000000000000000000000000,
        [⟨.functionBody, 7, 4⟩], [⟨.functionBody, .spliced, 4, 0x1335d769fa6ba5dff⟩]⟩,
      ⟨20, 0x1000000000000000000000000000000000000000000000000000000000000000000000,
        [⟨.statement, 8, 6⟩], [⟨.statement, .statement, 6, 0x10040200086985dfd⟩]⟩,
      ⟨21, 0x100000000000000000000000000000000000000000000000000000000000000000000000000000000000000000000000000000000000000,
        [⟨.statement, 7, 6⟩], [⟨.statement, .statement, 6, 0x10040200086985dfd⟩]⟩,
      ⟨22, 0x10000000000000000000000000000000000000000000000000000000000000000,
        [⟨.statement, 12, 7⟩], [⟨.statement, .statement, 7, 0x10040200086985dfd⟩]⟩,
      ⟨23, 0x20000000000000000000000000000000000000000000000000000000000000000,
        [⟨.functionBody, 3, 5⟩], [⟨.functionBody, .spliced, 5, 0x1335d769fa6ba5dff⟩]⟩,
      ⟨24, 0x40000000000000000000000000000000000000000000000000000000000000000,
        [⟨.functionBody, 5, 5⟩], [⟨.functionBody, .spliced, 5, 0x1335d769fa6ba5dff⟩]⟩,
      ⟨25, 0x2000000000000000000000000000000000000000000000000000000000000000000000,
        [⟨.statement, 6, 7⟩], [⟨.statement, .statement, 7, 0x10040200086985dfd⟩]⟩,
      ⟨26, 0x100000000000000000000000000000000000000000000000000000000000000000,
        [⟨.functionBody, 1, 6⟩], [⟨.functionBody, .spliced, 6, 0x1335d769fa6ba5dff⟩]⟩,
      ⟨27, 0x200000000000000000000000000000000000000000000000000000000000000000,
        [⟨.functionBody, 6, 6⟩], [⟨.functionBody, .spliced, 6, 0x1335d769fa6ba5dff⟩]⟩,
      ⟨28, 0x400000000000000000000000000000000000000000000000000000000000000000,
        [⟨.statement, 11, 9⟩], [⟨.statement, .statement, 9, 0x10040200086985dfd⟩]⟩,
      ⟨29, 0x800000000000000000000000000000000000000000000000000000000000000000,
        [⟨.functionBody, 2, 7⟩], [⟨.functionBody, .spliced, 7, 0x1335d769fa6ba5dff⟩]⟩,
      ⟨30, 0x1000000000000000000000000000000000000000000000000000000000000000000,
        [⟨.functionBody, 4, 7⟩], [⟨.functionBody, .spliced, 7, 0x1335d769fa6ba5dff⟩]⟩,
      ⟨31, 0x4000000000000000000000000000000000000000000000000000000000000000000,
        [⟨.functionBody, 0, 8⟩], [⟨.functionBody, .spliced, 8, 0x1335d769fa6ba5dff⟩]⟩,
      ⟨32, 0x8000000000000000000000000000000000000000000000000000000000000000000,
        [⟨.statement, 10, 11⟩], [⟨.statement, .statement, 11, 0x10040200086985dfd⟩]⟩]
  | .kwExport =>
    [⟨33, 0x40001620000000000000000000000000000000000000000000000000000000000000000000000000000001320000005400000000000fc1,
        [⟨.statement, 19, 1⟩, ⟨.statement, 20, 1⟩, ⟨.statement, 23, 1⟩, ⟨.statement, 25, 1⟩,
         ⟨.nameExpression, 2, 1⟩],
        [⟨.nameExpression, .name, 1, 0x544c2a84886185dfd⟩]⟩,
      ⟨34, 0x10c00000000000000000000000000008000005000105c000000000002108580008c180a80380000000f000,
        [⟨.nameExpression, 2, 1⟩], [⟨.nameExpression, .name, 1, 0x537dffedfa6ba5dff⟩]⟩,
      ⟨35, 0x140000000000000000000000000000000000000001000000000000000000000000000000000000000000000000000,
        [⟨.nameExpression, 2, 1⟩, ⟨.fieldName, 2, 1⟩],
        [⟨.nameExpression, .name, 1, 0x4369dfedea0020002⟩,
         ⟨.fieldName, .spliced, 1, 0x2000000000000⟩]⟩]
  | .kwFalse =>
    [⟨36, 0x140000010c00000000000000000000000000008001005000105c000000000002108400008c180a80380000000f000,
        [⟨.literal, 3, 1⟩], [⟨.literal, .literal, 1, 0x1335d769fa6ba5dff⟩]⟩,
      ⟨37, 0x700000000000000000000000000000000000000000000020183000fa1400fff2040f043080000500000000000000000000,
        [⟨.simpleType, 4, 1⟩], [⟨.simpleType, .singletonType, 1, 0x13b7f769fe6ba7dff⟩]⟩]
  | .kwFor =>
    [⟨38, 0x40001620000000000000000000000000000000000000000000000000000000000000000000000000000001320000005400000000000fc1,
        [⟨.statement, 10, 1⟩, ⟨.statement, 11, 1⟩, ⟨.statement, 12, 1⟩], []⟩]
  | .kwFunction =>
    [⟨39, 0x40001620000000000000000000000000000000000000000000000000000000000000000000000000000001320000005400000000000fc1,
        [⟨.statement, 14, 1⟩], []⟩,
      ⟨40, 0x800000000000000000000000000000000000000000000000000000000000000000000000000000000000000000000000000000000000000,
        [⟨.statement, 13, 2⟩], []⟩,
      ⟨41, 0x140000010c00000000000000000000000000008001005000105c000000000002108400008c180a80380000000f000,
        [⟨.simpleExpression, 5, 1⟩], []⟩,
      ⟨42, 0x4000000000000, [⟨.statement, 16, 2⟩], []⟩,
      ⟨43, 0x40000000000000000, [⟨.statement, 26, 2⟩], []⟩,
      ⟨44, 0x8000000000000, [⟨.statement, 15, 3⟩], []⟩,
      ⟨45, 0x80000000000000000, [⟨.statement, 25, 3⟩], []⟩,
      ⟨46, 0x1000000000000000000000000000000000000000000000000000000000000000000000000000000000000000000000000000000000000000,
        [⟨.simpleExpression, 4, 2⟩], []⟩]
  | .kwIf =>
    [⟨47, 0x40001620000000000000000000000000000000000000000000000000000000000000000000000000000001320000005400000000000fc1,
        [⟨.statement, 6, 1⟩, ⟨.statement, 7, 1⟩, ⟨.statement, 8, 1⟩, ⟨.statement, 9, 1⟩], []⟩,
      ⟨48, 0x140000010c00000000000000000000000000008001005000105c000000000002108400008c180a80380000000f000,
        [⟨.simpleExpression, 6, 1⟩, ⟨.simpleExpression, 7, 1⟩], []⟩]
  | .kwIn =>
    [⟨49, 0x4000000000000000000000000000000000000000000000000000000000000000000000,
        [⟨.statement, 12, 3⟩], []⟩]
  | .kwLocal =>
    [⟨50, 0x40001620000000000000000000000000000000000000000000000000000000000000000000000000000001320000005400000000000fc1,
        [⟨.statement, 16, 1⟩, ⟨.statement, 17, 1⟩, ⟨.statement, 18, 1⟩], []⟩,
      ⟨51, 0x800000000000000000000000000000000000000000000000000000000000000000000000000000000000000000000000000000000000000,
        [⟨.statement, 15, 2⟩], []⟩]
  | .kwNil =>
    [⟨52, 0x140000010c00000000000000000000000000008001005000105c000000000002108400008c180a80380000000f000,
        [⟨.literal, 1, 1⟩], [⟨.literal, .literal, 1, 0x1335d769fa6ba5dff⟩]⟩,
      ⟨53, 0x700000000000000000000000000000000000000000000020183000fa1400fff2040f043080000500000000000000000000,
        [⟨.simpleType, 1, 1⟩], [⟨.simpleType, .nilType, 1, 0x13b7f769fe6ba7dff⟩]⟩]
  | .kwNot =>
    [⟨54, 0x140000010c00000000000000000000000000008001005000105c000000000002108400008c180a80380000000f000,
        [⟨.unaryOperator, 0, 1⟩], [⟨.unaryOperator, .spliced, 1, 0x78440011090c19b08⟩]⟩]
  | .kwOr =>
    [⟨55, 0x10000000000000000000000000001000000000000000000000000000000000000000000000000000000000000000000000000000000000000,
        [⟨.binaryOperator, 15, 1⟩], [⟨.binaryOperator, .spliced, 1, 0x78440011090c19b08⟩]⟩]
  | .kwRead =>
    [⟨56, 0x280000000000000000000000000000000000000002000000000000000000000000000000000000000000000000000,
        [⟨.access, 0, 1⟩, ⟨.propertyName, 1, 1⟩],
        [⟨.access, .spliced, 1, 0x10080000008040000⟩,
         ⟨.propertyName, .spliced, 1, 0x80000000000⟩]⟩,
      ⟨57, 0x20000000000000000000000000000000000000000000000000000000000000000000000000000000000000000000000000000000000,
        [⟨.propertyName, 1, 1⟩], [⟨.propertyName, .spliced, 1, 0x80000000000⟩]⟩]
  | .kwRepeat =>
    [⟨58, 0x40001620000000000000000000000000000000000000000000000000000000000000000000000000000001320000005400000000000fc1,
        [⟨.statement, 5, 1⟩], [⟨.block, .block, 0, 0x2000000⟩]⟩]
  | .kwReturn =>
    [⟨59, 0x40001620000000000000000000000000000000000000000000000000000000000000000000000000000001320000005400000000000fc1,
        [⟨.lastStatement, 0, 1⟩, ⟨.lastStatement, 1, 1⟩, ⟨.lastStatement, 2, 1⟩,
         ⟨.lastStatement, 3, 1⟩],
        [⟨.lastStatement, .returnStatement, 1, 0x20000e1⟩]⟩]
  | .kwThen =>
    [⟨60, 0x400000000000000000000000000000000000000000000000000000000000000000000000000000,
        [⟨.statement, 6, 3⟩, ⟨.statement, 7, 3⟩, ⟨.statement, 8, 3⟩, ⟨.statement, 9, 3⟩],
        [⟨.block, .block, 0, 0xe0⟩]⟩,
      ⟨61, 0x20000000000000000000000000000000000000000000000000000000000000000000000000000000,
        [⟨.simpleExpression, 6, 3⟩, ⟨.simpleExpression, 7, 3⟩], []⟩,
      ⟨62, 0x8000000000000000000000000000000000000000000000000000000000000000000000000000000000,
        [⟨.elseifClause, 0, 3⟩], [⟨.block, .block, 0, 0xe0⟩]⟩,
      ⟨63, 0x40000000000000000000000000000000000000000000000000000000000000000000000000000000000,
        [⟨.elseifExpression, 0, 3⟩], []⟩]
  | .kwTrue =>
    [⟨64, 0x140000010c00000000000000000000000000008001005000105c000000000002108400008c180a80380000000f000,
        [⟨.literal, 2, 1⟩], [⟨.literal, .literal, 1, 0x1335d769fa6ba5dff⟩]⟩,
      ⟨65, 0x700000000000000000000000000000000000000000000020183000fa1400fff2040f043080000500000000000000000000,
        [⟨.simpleType, 3, 1⟩], [⟨.simpleType, .singletonType, 1, 0x13b7f769fe6ba7dff⟩]⟩]
  | .kwType =>
    [⟨66, 0x40001620000000000000000000000000000000000000000000000000000000000000000000000000000001320000005400000000000fc1,
        [⟨.statement, 21, 1⟩, ⟨.statement, 22, 1⟩, ⟨.statement, 24, 1⟩, ⟨.statement, 26, 1⟩,
         ⟨.nameExpression, 1, 1⟩],
        [⟨.nameExpression, .name, 1, 0x444c2a848869855fd⟩]⟩,
      ⟨67, 0x200000000,
        [⟨.statement, 19, 2⟩, ⟨.statement, 20, 2⟩, ⟨.statement, 23, 2⟩, ⟨.statement, 25, 2⟩], []⟩,
      ⟨68, 0x10c00000000000000000000000000008000005000105c000000000002108580008c180a80380000000f000,
        [⟨.nameExpression, 1, 1⟩], [⟨.nameExpression, .name, 1, 0x537dffedfa6ba5dff⟩]⟩,
      ⟨69, 0x140000000000000000000000000000000000000001000000000000000000000000000000000000000000000000000,
        [⟨.nameExpression, 1, 1⟩, ⟨.fieldName, 1, 1⟩],
        [⟨.nameExpression, .name, 1, 0x4369dfedea0020002⟩,
         ⟨.fieldName, .spliced, 1, 0x2000000000000⟩]⟩]
  | .kwTypeof =>
    [⟨70, 0x700000000000000000000000000000000000000000000020183000fa1400fff2040f043080000500000000000000000000,
        [⟨.simpleType, 5, 1⟩], []⟩]
  | .kwUntil =>
    [⟨71, 0x1000000000000000000000000000000000000000000000000000000000000000,
        [⟨.statement, 5, 3⟩], []⟩]
  | .kwWhile =>
    [⟨72, 0x40001620000000000000000000000000000000000000000000000000000000000000000000000000000001320000005400000000000fc1,
        [⟨.statement, 4, 1⟩], []⟩]
  | .kwWrite =>
    [⟨73, 0x280000000000000000000000000000000000000002000000000000000000000000000000000000000000000000000,
        [⟨.access, 1, 1⟩, ⟨.propertyName, 2, 1⟩],
        [⟨.access, .spliced, 1, 0x10080000008040000⟩,
         ⟨.propertyName, .spliced, 1, 0x80000000000⟩]⟩,
      ⟨74, 0x20000000000000000000000000000000000000000000000000000000000000000000000000000000000000000000000000000000000,
        [⟨.propertyName, 2, 1⟩], [⟨.propertyName, .spliced, 1, 0x80000000000⟩]⟩]
  | .hash =>
    [⟨75, 0x140000010c00000000000000000000000000008001005000105c000000000002108400008c180a80380000000f000,
        [⟨.unaryOperator, 2, 1⟩], [⟨.unaryOperator, .spliced, 1, 0x78440011090c19b08⟩]⟩]
  | .percent =>
    [⟨76, 0x10000000000000000000000000001000000000000000000000000000000000000000000000000000000000000000000000000000000000000,
        [⟨.binaryOperator, 5, 1⟩], [⟨.binaryOperator, .spliced, 1, 0x78440011090c19b08⟩]⟩]
  | .ampersand =>
    [⟨77, 0xc000000000000001800000000000000000000000000000000000000000000020183000fa1400fff2040f043080000500000000000000000000,
        [⟨.typeOperator, 1, 1⟩], [⟨.typeOperator, .spliced, 1, 0x50400400081408200⟩]⟩]
  | .leftParen =>
    [⟨78, 0x40001620000000000140000010c00000000000000000000000000008001005000105c000000000002108593208c180fc0380000000ffc1,
        [⟨.primaryExpression, 1, 1⟩], []⟩,
      ⟨79, 0x8f000000000000000000000000000004400000000000000000000000000000000000000000000000000000000,
        [⟨.callArguments, 0, 1⟩, ⟨.callArguments, 1, 1⟩], []⟩,
      ⟨80, 0x700000000000000000000000000000000000000000000020183000fa1400fff2040f043080000500000000000000000000,
        [⟨.simpleType, 7, 1⟩, ⟨.simpleType, 8, 1⟩, ⟨.simpleType, 9, 1⟩, ⟨.simpleType, 10, 1⟩], []⟩,
      ⟨81, 0xc000000000000870000000000000000000000000000000000000000000000420000000000,
        [⟨.functionBody, 4, 1⟩, ⟨.functionBody, 5, 1⟩, ⟨.functionBody, 6, 1⟩,
         ⟨.functionBody, 7, 1⟩],
        []⟩,
      ⟨82, 0x100000000000000000000000000000000000000000000000000000000000000000000000000000000000000000000000000000000000,
        [⟨.simpleType, 11, 2⟩, ⟨.simpleType, 12, 2⟩], []⟩,
      ⟨83, 0x400000000000000000, [⟨.simpleType, 5, 2⟩], []⟩,
      ⟨84, 0x200000000000000000000000000000000000000000000000000000000000000000000000000000000000000000000000000000000000,
        [⟨.functionBody, 0, 2⟩, ⟨.functionBody, 1, 2⟩, ⟨.functionBody, 2, 2⟩,
         ⟨.functionBody, 3, 2⟩],
        []⟩]
  | .rightParen =>
    [⟨85, 0x80000000000000000000,
        [⟨.callArguments, 1, 2⟩],
        [⟨.callArguments, .parenthesizedArguments, 2, 0x577dffedfa6ba5dff⟩]⟩,
      ⟨86, 0x2000000000000000000000000000000000000000000000000000000000000000000000000000000,
        [⟨.primaryExpression, 1, 3⟩],
        [⟨.primaryExpression, .parenthesized, 3, 0x577dffedfa6ba5dff⟩]⟩,
      ⟨87, 0x100000000000000000000,
        [⟨.simpleType, 8, 2⟩, ⟨.simpleType, 10, 2⟩],
        [⟨.simpleType, .parenthesizedType, 2, 0x13b7f769fe6ba7dff⟩]⟩,
      ⟨88, 0x80000000000000000000000000000000000000000000000000000000000000000000000000000,
        [⟨.callArguments, 0, 3⟩],
        [⟨.callArguments, .parenthesizedArguments, 3, 0x577dffedfa6ba5dff⟩]⟩,
      ⟨89, 0x200000000000000000000,
        [⟨.functionBody, 6, 2⟩, ⟨.functionBody, 7, 2⟩], [⟨.block, .block, 0, 0x80⟩]⟩,
      ⟨90, 0x400000000000000000000, [⟨.simpleType, 12, 3⟩], []⟩,
      ⟨91, 0x8000000000000000000000000000000000000000000000000000000000000000000000000000000000000000000000000000,
        [⟨.simpleType, 7, 3⟩, ⟨.simpleType, 9, 3⟩],
        [⟨.simpleType, .parenthesizedType, 3, 0x13b7f769fe6ba7dff⟩]⟩,
      ⟨92, 0x1000000000000000000000,
        [⟨.functionBody, 2, 3⟩, ⟨.functionBody, 3, 3⟩], [⟨.block, .block, 0, 0x80⟩]⟩,
      ⟨93, 0x1000000000000000000000000000000000000000000000000000000000000000000000000000,
        [⟨.functionBody, 4, 3⟩, ⟨.functionBody, 5, 3⟩], [⟨.block, .block, 0, 0x80⟩]⟩,
      ⟨94, 0x10000000000000000000000000000000000000000000000000000000000000000000000000000000000000000000000000000,
        [⟨.simpleType, 11, 4⟩], []⟩,
      ⟨95, 0x400000000000000000000000000000000000000000000000000000000000000000000000000000000,
        [⟨.simpleType, 5, 4⟩], [⟨.simpleType, .typeofType, 4, 0x13b7f769fe6ba7dff⟩]⟩,
      ⟨96, 0x2000000000000000000000000000000000000000000000000000000000000000000000000000,
        [⟨.functionBody, 0, 4⟩, ⟨.functionBody, 1, 4⟩], [⟨.block, .block, 0, 0x80⟩]⟩]
  | .star =>
    [⟨97, 0x10000000000000000000000000001000000000000000000000000000000000000000000000000000000000000000000000000000000000000,
        [⟨.binaryOperator, 2, 1⟩], [⟨.binaryOperator, .spliced, 1, 0x78440011090c19b08⟩]⟩]
  | .plus =>
    [⟨98, 0x10000000000000000000000000001000000000000000000000000000000000000000000000000000000000000000000000000000000000000,
        [⟨.binaryOperator, 0, 1⟩], [⟨.binaryOperator, .spliced, 1, 0x78440011090c19b08⟩]⟩]
  | .comma =>
    [⟨99, 0x1000000000000000000000000000000000000000000000000000000000000000000000000000000000000000,
        [⟨.furtherTargets, 0, 1⟩], []⟩,
      ⟨100, 0x80000000000000000000000000000000000000000000000000000000000000000000000000000000000000000000000000000000000000,
        [⟨.furtherTargets, 1, 2⟩], []⟩,
      ⟨101, 0x30000000000000000000000000000000000000000000000000000000000000000000000,
        [⟨.furtherBindings, 0, 1⟩], []⟩,
      ⟨102, 0x800000000000000000000000000000000000000000000000000000000000000000000000000000,
        [⟨.furtherExpressions, 0, 1⟩], []⟩,
      ⟨103, 0x900000000000000000000000000000000000000000000000000000000000000000000000000000000000000000000000000000,
        [⟨.furtherTypesOrPacks, 0, 1⟩], []⟩,
      ⟨104, 0x2200000004000000000000004000000000000000000000000000000000000000000000000000000000000000000000000000000000000000000,
        [⟨.fieldSeparator, 0, 1⟩], [⟨.fieldSeparator, .spliced, 1, 0x794c0011098c59b08⟩]⟩,
      ⟨105, 0x800000000000000000000000000000000000000000000000000000000000000000000000,
        [⟨.furtherAttributeEntries, 0, 1⟩], []⟩,
      ⟨106, 0x200000000000000000000000000000000000000000000000000000000000000000000000000000000000000000000000000000000000000,
        [⟨.furtherBindings, 1, 2⟩], []⟩,
      ⟨107, 0x8000000000000000000000000000000000000000000000000000000000000000000000000000000000000000000000000000000000000000,
        [⟨.furtherExpressions, 1, 2⟩], []⟩,
      ⟨108, 0x180000000000000000000000000000000000000000000000000000000000000000000000000000000000000000000000000000000000000000,
        [⟨.furtherTypesOrPacks, 1, 2⟩], []⟩,
      ⟨109, 0x20000000000000000000000000000000000000000000000000000000000000000000000000000000000000000000000000000,
        [⟨.furtherListItems, 0, 1⟩], []⟩,
      ⟨110, 0x8000000000000000000000000000000000000000000000000000000000000000000000000000000000000000000000000000000000000,
        [⟨.furtherGenericParameters, 0, 1⟩], []⟩,
      ⟨111, 0x2000000000000000000000000000000000000000000000000000000000000000000000000000000000000000000000000000000000000000,
        [⟨.furtherAttributeEntries, 1, 2⟩], []⟩,
      ⟨112, 0x80000000000000000000000000000000000000000000000000000000000000000000000000000000,
        [⟨.statement, 10, 5⟩, ⟨.statement, 11, 5⟩], []⟩,
      ⟨113, 0x80000000000000000000000000000000000000000000000000000000000000000000000,
        [⟨.parameterList, 2, 2⟩, ⟨.furtherBindings, 0, 1⟩], []⟩,
      ⟨114, 0x1000000000000000000000000000000000000000000000000000000000000000000000000000000000000000000000000000000000000000000,
        [⟨.furtherListItems, 1, 2⟩], []⟩,
      ⟨115, 0x4000000000000000000000000000000000000000000000000000000000000000000000000000000000000000000000000000000000000000000,
        [⟨.furtherGenericParameters, 1, 2⟩], []⟩,
      ⟨116, 0x400000000000000000000000000000000000000000000000000000000000000000000000000000000000000000000000000000000000000,
        [⟨.parameterList, 0, 3⟩, ⟨.furtherBindings, 1, 2⟩], []⟩,
      ⟨117, 0x4000000000000000000000000000000000000000000000000000000000000000000000000000000000,
        [⟨.statement, 10, 7⟩], []⟩]
  | .minus =>
    [⟨118, 0x140000010c00000000000000000000000000008001005000105c000000000002108400008c180a80380000000f000,
        [⟨.unaryOperator, 1, 1⟩], [⟨.unaryOperator, .spliced, 1, 0x78440011090c19b08⟩]⟩,
      ⟨119, 0x10000000000000000000000000001000000000000000000000000000000000000000000000000000000000000000000000000000000000000,
        [⟨.binaryOperator, 1, 1⟩], [⟨.binaryOperator, .spliced, 1, 0x78440011090c19b08⟩]⟩]
  | .arrow =>
    [⟨120, 0x8000000000000000000000, [⟨.simpleType, 10, 3⟩], []⟩,
      ⟨121, 0x40000000000000000000000, [⟨.simpleType, 12, 4⟩], []⟩,
      ⟨122, 0x80000000000000000000000, [⟨.simpleType, 9, 4⟩], []⟩,
      ⟨123, 0x400000000000000000000000, [⟨.simpleType, 11, 5⟩], []⟩]
  | .dot =>
    [⟨124, 0xf000000000000000000000000000000000000000000000000000000000000000000000000000000000000000,
        [⟨.suffixedExpression, 1, 2⟩], []⟩,
      ⟨125, 0x100000000000000000000000000000000000000000000000000000000,
        [⟨.nameSuffixes, 0, 1⟩], []⟩,
      ⟨126, 0x381000000000000000000000000000000000000000000000000000000000,
        [⟨.typeReference, 2, 2⟩, ⟨.typeReference, 3, 2⟩], []⟩,
      ⟨127, 0x4000000000000000000000000000000000000000000000000000000000000000000000000000000000000000000000000000000000000000,
        [⟨.nameSuffixes, 1, 2⟩], []⟩]
  | .concat =>
    [⟨128, 0x10000000000000000000000000001000000000000000000000000000000000000000000000000000000000000000000000000000000000000,
        [⟨.binaryOperator, 7, 1⟩], [⟨.binaryOperator, .spliced, 1, 0x78440011090c19b08⟩]⟩]
  | .ellipsis =>
    [⟨129, 0x140000010c00000000000000000000000000008001005000105c000000000002108400008c180a80380000000f000,
        [⟨.literal, 4, 1⟩], [⟨.literal, .literal, 1, 0x1335d769fa6ba5dff⟩]⟩,
      ⟨130, 0xa0140016e0000f043080000500000000000000000000, [⟨.typeOrPack, 1, 1⟩], []⟩,
      ⟨131, 0x201000000000000000000000000000000000000000000000000000000000,
        [⟨.typeOrPack, 2, 2⟩], [⟨.typeOrPack, .genericPack, 2, 0x13b7f769fe6ba7dff⟩]⟩,
      ⟨132, 0x120000001200000000000000000000,
        [⟨.variadicParameter, 0, 1⟩, ⟨.variadicParameter, 1, 1⟩],
        [⟨.variadicParameter, .spliced, 1, 0x100000000⟩]⟩,
      ⟨133, 0x400000000000000000000000000000000000000000000000000000000000,
        [⟨.genericParameter, 2, 2⟩, ⟨.genericParameter, 3, 2⟩],
        [⟨.genericParameter, .genericPackParameter, 2, 0x18000800000000⟩]⟩]
  | .slash =>
    [⟨134, 0x10000000000000000000000000001000000000000000000000000000000000000000000000000000000000000000000000000000000000000,
        [⟨.binaryOperator, 3, 1⟩], [⟨.binaryOperator, .spliced, 1, 0x78440011090c19b08⟩]⟩]
  | .doubleSlash =>
    [⟨135, 0x10000000000000000000000000001000000000000000000000000000000000000000000000000000000000000000000000000000000000000,
        [⟨.binaryOperator, 4, 1⟩], [⟨.binaryOperator, .spliced, 1, 0x78440011090c19b08⟩]⟩]
  | .colon =>
    [⟨136, 0xf000000000000000000000000000000000000000000000000000000000000000000000000000000000000000,
        [⟨.suffixedExpression, 5, 2⟩, ⟨.suffixedExpression, 6, 2⟩], []⟩,
      ⟨137, 0x80000000000000000000000000000000000000000000000000000000, [⟨.binding, 0, 2⟩], []⟩,
      ⟨138, 0x100000000000000000000000000000000000000000000000000000000,
        [⟨.functionName, 2, 2⟩], []⟩,
      ⟨139, 0x4000000000000000000000000000000000000000000000000000000000000000000000000000000000000000000000000000000000000000,
        [⟨.functionName, 0, 3⟩], []⟩,
      ⟨140, 0x40000000000000000000000000000000000000000000000000000000000000000000000000000000000000000000000000000000000,
        [⟨.tableTypeField, 3, 2⟩], []⟩,
      ⟨141, 0x200000000000000000000000000000000000000000000000000000000000,
        [⟨.typeListItem, 0, 2⟩], []⟩,
      ⟨142, 0x1000000000000000000000000000000000, [⟨.variadicParameter, 0, 2⟩], []⟩,
      ⟨143, 0x20000000000000000000000, [⟨.functionBody, 6, 3⟩], []⟩,
      ⟨144, 0x80000000000000000000000000000000000000000000000000000000000000000000000000000000000000000000000000000000000,
        [⟨.tableTypeField, 2, 3⟩], []⟩,
      ⟨145, 0x100000000000000000000000, [⟨.functionBody, 2, 4⟩], []⟩,
      ⟨146, 0x200000000000000000000000, [⟨.functionBody, 4, 4⟩], []⟩,
      ⟨147, 0x200000000000000000000000000000000000000000000000000, [⟨.tableTypeField, 1, 4⟩], []⟩,
      ⟨148, 0x1000000000000000000000000, [⟨.functionBody, 0, 5⟩], []⟩,
      ⟨149, 0x400000000000000000000000000000000000000000000000000, [⟨.tableTypeField, 0, 5⟩], []⟩]
  | .doubleColon =>
    [⟨150, 0x40000000000000000000000000000000000000000000000000000000000000000000000000000000000000,
        [⟨.assertions, 0, 1⟩], []⟩,
      ⟨151, 0x20000000000000000000000000000000000000000000000000000000000000000000000000000000000000000000000000000000000000000,
        [⟨.assertions, 1, 2⟩], []⟩]
  | .semicolon =>
    [⟨152, 0x100000000000000000000000000000000000000000000000000000000000000000000,
        [⟨.lastStatement, 6, 2⟩], [⟨.lastStatement, .spliced, 2, 0x20000e1⟩]⟩,
      ⟨153, 0x10000000000000000000000000000000000000000000000000000000000000000000,
        [⟨.statements, 0, 2⟩], [⟨.statements, .spliced, 2, 0x10040000086985dfd⟩]⟩,
      ⟨154, 0x4, [⟨.lastStatement, 4, 2⟩], [⟨.lastStatement, .statement, 2, 0x20000e1⟩]⟩,
      ⟨155, 0x800000000000000,
        [⟨.lastStatement, 2, 2⟩], [⟨.lastStatement, .returnStatement, 2, 0x20000e1⟩]⟩,
      ⟨156, 0x20000000000000000000000000000000000000000000000000000000000000000000,
        [⟨.statements, 2, 3⟩], [⟨.statements, .spliced, 3, 0x10040000086985dfd⟩]⟩,
      ⟨157, 0x20000000000000000000000000000000000000000000000000000000000000000000000000000,
        [⟨.lastStatement, 0, 3⟩], [⟨.lastStatement, .returnStatement, 3, 0x20000e1⟩]⟩,
      ⟨158, 0x2200000004000000000000004000000000000000000000000000000000000000000000000000000000000000000000000000000000000000000,
        [⟨.fieldSeparator, 1, 1⟩], [⟨.fieldSeparator, .spliced, 1, 0x794c0011098c59b08⟩]⟩]
  | .less =>
    [⟨159, 0x7000000000000000000000000c0000000000008700000020183000fa1400fff2040f043080000500000000420000000000,
        [⟨.genericParameters, 0, 1⟩], []⟩,
      ⟨160, 0x10000000000000000000000000001000000000000000000000000000000000000000000000000000000000000000000000000000000000000,
        [⟨.binaryOperator, 10, 1⟩], [⟨.binaryOperator, .spliced, 1, 0x78440011090c19b08⟩]⟩,
      ⟨161, 0x200000000000000000000000000000000000000000000000000000000,
        [⟨.statement, 24, 3⟩, ⟨.genericParameters, 0, 1⟩], []⟩,
      ⟨162, 0x8381000000000000000000000000000000000000000000000000000000000,
        [⟨.typeArguments, 0, 1⟩, ⟨.typeArguments, 1, 1⟩, ⟨.typeArguments, 2, 1⟩], []⟩,
      ⟨163, 0x8000000000000000000000000000000000000000000000000000000000,
        [⟨.statement, 23, 4⟩, ⟨.genericParameters, 0, 1⟩], []⟩]
  | .doubleLess =>
    [⟨164, 0xf000000000000000000000000000000400000000000000000000000000000000000000000000000000000000,
        [⟨.typeInstantiation, 0, 1⟩, ⟨.typeInstantiation, 1, 1⟩], []⟩]
  | .lessEqual =>
    [⟨165, 0x10000000000000000000000000001000000000000000000000000000000000000000000000000000000000000000000000000000000000000,
        [⟨.binaryOperator, 11, 1⟩], [⟨.binaryOperator, .spliced, 1, 0x78440011090c19b08⟩]⟩]
  | .equals =>
    [⟨166, 0x200000000000000000000000000000000000000000000000000000000000000000000,
        [⟨.statement, 0, 2⟩], []⟩,
      ⟨167, 0x10000000000000000000000000000000000000000000000000000000000000000000000,
        [⟨.statement, 10, 3⟩, ⟨.statement, 11, 3⟩], []⟩,
      ⟨168, 0x8000000000000000000000000000000000000000000000000000000000000000000000,
        [⟨.statement, 17, 3⟩], []⟩,
      ⟨169, 0x200000000000000000000000000000000000000000000000000000000,
        [⟨.statement, 22, 3⟩], []⟩,
      ⟨170, 0x20000000000000000000000000000000000000000000000000000000000000000000000000000000000000000000,
        [⟨.tableField, 1, 2⟩], []⟩,
      ⟨171, 0x8000000000000000000000000000000000000000000000000000000000,
        [⟨.statement, 20, 4⟩], []⟩,
      ⟨172, 0x400000000000000000000000000000000000000000000000000000000000000000000000000000000000000000000000000000000000,
        [⟨.statement, 21, 4⟩], []⟩,
      ⟨173, 0x400000000000000000000000000000000000000000000000000000000000,
        [⟨.genericParameter, 0, 2⟩], []⟩,
      ⟨174, 0x800000000000000000000000000000000000000000000000000000000000000000000000000000000000000000000000000000000000,
        [⟨.statement, 19, 5⟩], []⟩,
      ⟨175, 0x2000000000000000000000000000000000, [⟨.genericParameter, 2, 3⟩], []⟩,
      ⟨176, 0x80000000000000000000000000000000000000000000000000, [⟨.tableField, 0, 4⟩], []⟩]
  | .doubleEquals =>
    [⟨177, 0x10000000000000000000000000001000000000000000000000000000000000000000000000000000000000000000000000000000000000000,
        [⟨.binaryOperator, 8, 1⟩], [⟨.binaryOperator, .spliced, 1, 0x78440011090c19b08⟩]⟩]
  | .greater =>
    [⟨178, 0x10000000000000000000000000001000000000000000000000000000000000000000000000000000000000000000000000000000000000000,
        [⟨.binaryOperator, 12, 1⟩], [⟨.binaryOperator, .spliced, 1, 0x78440011090c19b08⟩]⟩,
      ⟨179, 0x100000000000000000000000000000000000000000000000000000000000000000000000000000000000000000000000000000,
        [⟨.typeInstantiation, 1, 3⟩], []⟩,
      ⟨180, 0x80000000000000000000000000000000000000000000000000000000000000000000000000000000000000000000000000000000000000000,
        [⟨.typeInstantiation, 0, 4⟩], []⟩,
      ⟨181, 0x800000000000000000000000000000000000000000000,
        [⟨.typeInstantiation, 1, 4⟩],
        [⟨.typeInstantiation, .typeInstantiation, 4, 0x577dffedfa6ba5dff⟩]⟩,
      ⟨182, 0x7000000000000000000000000000000000000000000000000000000000000000000000000000000000000000000000000000000000000,
        [⟨.genericParameters, 0, 3⟩], [⟨.genericParameters, .spliced, 3, 0x2000080000000⟩]⟩,
      ⟨183, 0x40000000000000000000000000000000000000000,
        [⟨.typeArguments, 2, 2⟩], [⟨.typeArguments, .typeArguments, 2, 0x13b7f769fe6ba7dff⟩]⟩,
      ⟨184, 0x1000000000000000000000000000000000000000000000,
        [⟨.typeInstantiation, 0, 5⟩],
        [⟨.typeInstantiation, .typeInstantiation, 5, 0x577dffedfa6ba5dff⟩]⟩,
      ⟨185, 0x800000000000000000000000000000000000000000000000000000000000000000000000000000000000000000000000000000,
        [⟨.typeArguments, 1, 3⟩], [⟨.typeArguments, .typeArguments, 3, 0x13b7f769fe6ba7dff⟩]⟩,
      ⟨186, 0x100000000000000000000000000000000000000000000000000000000000000000000000000000000000000000000000000000000000000000,
        [⟨.typeArguments, 0, 4⟩], [⟨.typeArguments, .typeArguments, 4, 0x13b7f769fe6ba7dff⟩]⟩]
  | .greaterEqual =>
    [⟨187, 0x10000000000000000000000000001000000000000000000000000000000000000000000000000000000000000000000000000000000000000,
        [⟨.binaryOperator, 13, 1⟩], [⟨.binaryOperator, .spliced, 1, 0x78440011090c19b08⟩]⟩,
      ⟨188, 0x2000000000000000000000000000000000000000000000000000000000000000000000000000000000000000000000000000000000000,
        [⟨.statement, 24, 5⟩], []⟩,
      ⟨189, 0x4000000000000000000000000000000000000000000000000000000000000000000000000000000000000000000000000000000000000,
        [⟨.statement, 23, 6⟩], []⟩]
  | .question =>
    [⟨190, 0x780000000000000000000000000000000000000000000000000000000000000000000000000000000000000000000000000,
        [⟨.postfixType, 1, 2⟩], [⟨.postfixType, .optionalType, 2, 0x13b7f769fe6ba7dff⟩]⟩]
  | .atSign =>
    [⟨191, 0x1840001620000000000140000010c00000000000000000000000000008001005000105c000000000002108413208c180fc0380000000ffc1,
        [⟨.attribute, 0, 1⟩, ⟨.attribute, 1, 1⟩, ⟨.attribute, 2, 1⟩], []⟩]
  | .leftBracket =>
    [⟨192, 0xf000000000000000000000000000000000000000000000000000000000000000000000000000000000000000,
        [⟨.suffixedExpression, 2, 2⟩], []⟩,
      ⟨193, 0x800000000000000000000000000000000000000000000000,
        [⟨.attribute, 1, 2⟩, ⟨.attribute, 2, 2⟩], []⟩,
      ⟨194, 0x140000000000000000000000000000000000000001000000000000000000000000000000000000000000000000000,
        [⟨.tableField, 0, 1⟩], []⟩,
      ⟨195, 0x280000000000000000000000000000000000000002000000000000000000000000000000000000000000000000000,
        [⟨.tableTypeField, 1, 1⟩], []⟩,
      ⟨196, 0x20000000000000000000000000000000000000000000000000000000000000000000000000000000000000000000000000000000000,
        [⟨.tableTypeField, 0, 2⟩], []⟩]
  | .rightBracket =>
    [⟨197, 0x10000000000000000000000000000000000000000000000000000000000000000000000000000000,
        [⟨.suffixedExpression, 2, 4⟩], [⟨.suffixedExpression, .keyIndex, 4, 0x577dffedfa6ba5dff⟩]⟩,
      ⟨198, 0x800000000000000000000000000000000000000000000000000000000000000000000000,
        [⟨.attribute, 2, 4⟩], [⟨.attribute, .spliced, 4, 0x40000000004800⟩]⟩,
      ⟨199, 0x40000000000000000000000000000000000000000000000000000000000000000000000000000000,
        [⟨.tableField, 0, 3⟩], []⟩,
      ⟨200, 0x2000000000000000000000000000000000000000000000000000000000000000000000000000000000000000000000000000000000000000,
        [⟨.attribute, 1, 5⟩], [⟨.attribute, .spliced, 5, 0x40000000004800⟩]⟩,
      ⟨201, 0x10000000000000000000000000000000000000000000000000000000000000000000000000000000000000000000000,
        [⟨.tableTypeField, 1, 3⟩], []⟩,
      ⟨202, 0x100000000000000000000000000000000000000000000000000000000000000000000000000000000000000000000000,
        [⟨.tableTypeField, 0, 4⟩], []⟩]
  | .caret =>
    [⟨203, 0x10000000000000000000000000001000000000000000000000000000000000000000000000000000000000000000000000000000000000000,
        [⟨.binaryOperator, 6, 1⟩], [⟨.binaryOperator, .spliced, 1, 0x78440011090c19b08⟩]⟩]
  | .leftBrace =>
    [⟨204, 0x14008f010c00000000000000000000000004408001005000105c000000000002108400008c180a80380000000f000,
        [⟨.tableConstructor, 0, 1⟩, ⟨.tableConstructor, 1, 1⟩, ⟨.tableConstructor, 2, 1⟩,
         ⟨.tableConstructor, 3, 1⟩, ⟨.tableConstructor, 4, 1⟩],
        []⟩,
      ⟨205, 0x700000000000000000000000000000000000000000000020183000fa1400fff2040f043080000500000000000000000000,
        [⟨.tableType, 0, 1⟩, ⟨.tableType, 1, 1⟩, ⟨.tableType, 2, 1⟩, ⟨.tableType, 3, 1⟩,
         ⟨.tableType, 4, 1⟩, ⟨.tableType, 5, 1⟩],
        []⟩]
  | .bar =>
    [⟨206, 0xc000000000000001800000000000000000000000000000000000000000000020183000fa1400fff2040f043080000500000000000000000000,
        [⟨.typeOperator, 0, 1⟩], [⟨.typeOperator, .spliced, 1, 0x50400400081408200⟩]⟩]
  | .rightBrace =>
    [⟨207, 0x1000000000000000000000000000000000000000000000000000,
        [⟨.tableConstructor, 4, 2⟩], [⟨.tableConstructor, .table, 2, 0x577dffedfa6ba5dff⟩]⟩,
      ⟨208, 0x2000000000000000000000000000000000000000000000000000,
        [⟨.tableType, 0, 2⟩], [⟨.tableType, .tableType, 2, 0x13b7f769fe6ba7dff⟩]⟩,
      ⟨209, 0x4000000000000000000000000000000000000000000000000000000000000000000000000000000000000000000,
        [⟨.tableConstructor, 3, 3⟩], [⟨.tableConstructor, .table, 3, 0x577dffedfa6ba5dff⟩]⟩,
      ⟨210, 0x4000000000000000000000000000000000000000000000000000000000000000000000000000000000000000000000000000000000,
        [⟨.tableType, 5, 3⟩], [⟨.tableType, .tableType, 3, 0x13b7f769fe6ba7dff⟩]⟩,
      ⟨211, 0x1000000000000000000000000000000000000000000000000000000000000000000000000000000000000000000000,
        [⟨.tableType, 1, 3⟩], [⟨.tableType, .tableType, 3, 0x13b7f769fe6ba7dff⟩]⟩,
      ⟨212, 0x40000000000000000000000000000000000000000000000000000000000000000000000000000000000000000000,
        [⟨.tableConstructor, 2, 4⟩], [⟨.tableConstructor, .table, 4, 0x577dffedfa6ba5dff⟩]⟩,
      ⟨213, 0x200000000000000000000000000000000000000000000000000000000000000000000000000000000000000000000000000000000000000000,
        [⟨.tableConstructor, 1, 4⟩], [⟨.tableConstructor, .table, 4, 0x577dffedfa6ba5dff⟩]⟩,
      ⟨214, 0x80000000000000000000000000000000000000000000000000000000000000000000000000000000000000000000,
        [⟨.tableType, 4, 4⟩], [⟨.tableType, .tableType, 4, 0x13b7f769fe6ba7dff⟩]⟩,
      ⟨215, 0x2000000000000000000000000000000000000000000000000000000000000000000000000000000000000000000000000000000000000000000,
        [⟨.tableType, 3, 4⟩], [⟨.tableType, .tableType, 4, 0x13b7f769fe6ba7dff⟩]⟩,
      ⟨216, 0x100000000000000000000000000000000000000000000000000000000000000000000000000000000000000000000,
        [⟨.tableConstructor, 0, 5⟩], [⟨.tableConstructor, .table, 5, 0x577dffedfa6ba5dff⟩]⟩,
      ⟨217, 0x200000000000000000000000000000000000000000000000000000000000000000000000000000000000000000000,
        [⟨.tableType, 2, 5⟩], [⟨.tableType, .tableType, 5, 0x13b7f769fe6ba7dff⟩]⟩]
  | .notEqual =>
    [⟨218, 0x10000000000000000000000000001000000000000000000000000000000000000000000000000000000000000000000000000000000000000,
        [⟨.binaryOperator, 9, 1⟩], [⟨.binaryOperator, .spliced, 1, 0x78440011090c19b08⟩]⟩]
  | .compound =>
    [⟨219, 0x1000000000000000000000000000000000000000000000000000000000000000000000000000000000000000,
        [⟨.statement, 1, 2⟩], []⟩]
  | .interpolated =>
    [⟨220, 0x140000010c00000000000000000000000000008001005000105c000000000002108400008c180a80380000000f000,
        [⟨.simpleExpression, 2, 1⟩],
        [⟨.simpleExpression, .interpolatedString, 1, 0x1335d769fa6ba5dff⟩]⟩]
  | .name =>
    [⟨221, 0x40001620000000000000000010c00000000000000000000000000008000005000105c000000000002108593208c180fc0380000000ffc1,
        [⟨.nameExpression, 0, 1⟩], [⟨.nameExpression, .name, 1, 0x577dffedfa6ba5dff⟩]⟩,
      ⟨222, 0x800000000000000000000000000000000000000000000000,
        [⟨.attribute, 0, 2⟩], [⟨.attribute, .spliced, 2, 0x40000000004800⟩]⟩,
      ⟨223, 0x120420001200000004004000000000,
        [⟨.binding, 0, 1⟩, ⟨.binding, 1, 1⟩], [⟨.binding, .binding, 1, 0x10042200986987dfd⟩]⟩,
      ⟨224, 0x18000000000,
        [⟨.functionName, 0, 1⟩, ⟨.functionName, 1, 1⟩, ⟨.functionName, 2, 1⟩,
         ⟨.functionName, 3, 1⟩],
        [⟨.functionName, .spliced, 1, 0x400080000000⟩]⟩,
      ⟨225, 0x40000000000000000,
        [⟨.statement, 21, 2⟩, ⟨.statement, 22, 2⟩, ⟨.statement, 24, 2⟩], []⟩,
      ⟨226, 0x10000000000000000000000000000000000,
        [⟨.suffixedExpression, 5, 3⟩, ⟨.suffixedExpression, 6, 3⟩], []⟩,
      ⟨227, 0x10000000000000000000000000000000,
        [⟨.suffixedExpression, 1, 3⟩],
        [⟨.suffixedExpression, .fieldIndex, 3, 0x577dffedfa6ba5dff⟩]⟩,
      ⟨228, 0xa0140016e0000f001080000000000000000000000000,
        [⟨.typeReference, 0, 1⟩, ⟨.typeReference, 1, 1⟩, ⟨.typeReference, 2, 1⟩,
         ⟨.typeReference, 3, 1⟩, ⟨.typeOrPack, 2, 1⟩],
        [⟨.typeReference, .typeReference, 1, 0x13b7f369fe6ba7dff⟩]⟩,
      ⟨229, 0x140000000000000000000000000000000000000001000000000000000000000000000000000000000000000000000,
        [⟨.nameExpression, 0, 1⟩, ⟨.fieldName, 0, 1⟩],
        [⟨.nameExpression, .name, 1, 0x4369dfedea0020002⟩,
         ⟨.fieldName, .spliced, 1, 0x2000000000000⟩]⟩,
      ⟨230, 0x2000000000000000000008200000000000000000000000000,
        [⟨.attributeEntry, 0, 1⟩, ⟨.attributeEntry, 1, 1⟩],
        [⟨.attributeEntry, .spliced, 1, 0x100000800000000⟩]⟩,
      ⟨231, 0x80000000000000000,
        [⟨.statement, 19, 3⟩, ⟨.statement, 20, 3⟩, ⟨.statement, 23, 3⟩], []⟩,
      ⟨232, 0x40000000000, [⟨.statement, 16, 3⟩], []⟩,
      ⟨233, 0x80000000000, [⟨.statement, 26, 3⟩], []⟩,
      ⟨234, 0x100000000000, [⟨.statement, 15, 4⟩], []⟩,
      ⟨235, 0x7000000000000000000000000000000000000000000000001830005a0000e9120400000000000000000000000000000000,
        [⟨.typeReference, 0, 1⟩, ⟨.typeReference, 1, 1⟩, ⟨.typeReference, 2, 1⟩,
         ⟨.typeReference, 3, 1⟩],
        [⟨.typeReference, .typeReference, 1, 0x13b7f369fe6ba7dff⟩]⟩,
      ⟨236, 0x2000000000000000000000000000000000000000000000000000,
        [⟨.typeReference, 0, 1⟩, ⟨.typeReference, 1, 1⟩, ⟨.typeReference, 2, 1⟩,
         ⟨.typeReference, 3, 1⟩, ⟨.propertyName, 0, 1⟩],
        [⟨.typeReference, .typeReference, 1, 0x1820000040000000⟩,
         ⟨.propertyName, .spliced, 1, 0x80000000000⟩]⟩,
      ⟨237, 0x42000000500000000000000000000,
        [⟨.typeReference, 0, 1⟩, ⟨.typeReference, 1, 1⟩, ⟨.typeReference, 2, 1⟩,
         ⟨.typeReference, 3, 1⟩, ⟨.typeListItem, 0, 1⟩, ⟨.typeOrPack, 2, 1⟩],
        [⟨.typeReference, .typeReference, 1, 0x820000940000000⟩]⟩,
      ⟨238, 0xa8000000000084000000000000000000000000000,
        [⟨.genericParameter, 0, 1⟩, ⟨.genericParameter, 1, 1⟩, ⟨.genericParameter, 2, 1⟩,
         ⟨.genericParameter, 3, 1⟩],
        [⟨.genericParameter, .genericParameter, 1, 0x18000800000000⟩]⟩,
      ⟨239, 0x200000000000, [⟨.statement, 25, 4⟩], []⟩,
      ⟨240, 0x40000000000000000000000000000000000,
        [⟨.functionName, 2, 3⟩], [⟨.functionName, .spliced, 3, 0x400080000000⟩]⟩,
      ⟨241, 0x20000000000000000000000000000000,
        [⟨.nameSuffixes, 0, 2⟩], [⟨.nameSuffixes, .spliced, 2, 0x484080000000⟩]⟩,
      ⟨242, 0x20000000000000280000000000000000000000000000000000000000000000000000000000000000000000000000000000000000000,
        [⟨.propertyName, 0, 1⟩], [⟨.propertyName, .spliced, 1, 0x80000000000⟩]⟩,
      ⟨243, 0x40000000000000000000000000000000,
        [⟨.typeReference, 2, 3⟩, ⟨.typeReference, 3, 3⟩],
        [⟨.typeReference, .typeReference, 3, 0x13b7f369fe6ba7dff⟩]⟩,
      ⟨244, 0x80000000000000000000000000000000000,
        [⟨.functionName, 0, 4⟩], [⟨.functionName, .spliced, 4, 0x400080000000⟩]⟩,
      ⟨245, 0x80000000000000000000000000000000,
        [⟨.nameSuffixes, 1, 3⟩], [⟨.nameSuffixes, .spliced, 3, 0x484080000000⟩]⟩]
  | .number =>
    [⟨246, 0x140000010c00000000000000000000000000008001005000105c000000000002108400008c180a80380000000f000,
        [⟨.literal, 0, 1⟩], [⟨.literal, .literal, 1, 0x1335d769fa6ba5dff⟩]⟩]
  | .quoted =>
    [⟨247, 0x14008f010c00000000000000000000000004408001005000105c000000000002108400008c180a80380000000f000,
        [⟨.string, 0, 1⟩], [⟨.string, .string, 1, 0x577dffedfa6ba5dff⟩]⟩,
      ⟨248, 0x700000000000000000000000000000000000000000000020183000fa1400fff2040f043080000500000000000000000000,
        [⟨.simpleType, 2, 1⟩], [⟨.simpleType, .singletonType, 1, 0x13b7f769fe6ba7dff⟩]⟩]

end TypedLinks.Luau
