import TypedLinks.Luau.Automaton.State

/-!
# States entered by a category

The states of the parsing automaton that a reduction leads to, for each category. A chunk is the
whole source, so no state follows it.
-/

namespace TypedLinks.Luau

/-- The states entered after a reduction to a category. -/
def afterCategory : Category → List State
  | .chunk => []
  | .block =>
    [⟨250, 0x1, [⟨.chunk, 0, 1⟩], [⟨.chunk, .spliced, 1, 0x1⟩]⟩,
      ⟨251, 0x40, [⟨.statement, 3, 2⟩], []⟩,
      ⟨252, 0x400000000000000, [⟨.statement, 5, 2⟩], []⟩,
      ⟨253, 0x1000000000000000,
        [⟨.statement, 6, 4⟩, ⟨.statement, 7, 4⟩, ⟨.statement, 8, 4⟩, ⟨.statement, 9, 4⟩], []⟩,
      ⟨254, 0x80, [⟨.statement, 4, 4⟩], []⟩,
      ⟨255, 0x20000000000000000000000, [⟨.functionBody, 7, 3⟩], []⟩,
      ⟨256, 0x100, [⟨.statement, 12, 6⟩], []⟩,
      ⟨257, 0x100000000000000000000000, [⟨.functionBody, 3, 4⟩], []⟩,
      ⟨258, 0x200000000000000000000000, [⟨.functionBody, 5, 4⟩], []⟩,
      ⟨259, 0x800, [⟨.elseClause, 0, 2⟩], [⟨.elseClause, .spliced, 2, 0x80⟩]⟩,
      ⟨260, 0x1000000000000000000000000, [⟨.functionBody, 1, 5⟩], []⟩,
      ⟨261, 0x20000000000000000000000000000000000000000000000000000000000000000000000000000000000000000000000000000000,
        [⟨.functionBody, 6, 5⟩], []⟩,
      ⟨262, 0x200, [⟨.statement, 11, 8⟩], []⟩,
      ⟨263, 0x200000000000000000000000000000000000000000000000000000000000000000000000000000000000000000000000000000000,
        [⟨.functionBody, 2, 6⟩], []⟩,
      ⟨264, 0x400000000000000000000000000000000000000000000000000000000000000000000000000000000000000000000000000000000,
        [⟨.functionBody, 4, 6⟩], []⟩,
      ⟨265, 0x4000000000000000, [⟨.elseifClause, 0, 4⟩], [⟨.elseifClause, .spliced, 4, 0xe0⟩]⟩,
      ⟨266, 0x1000000000000000000000000000000000000000000000000000000000000000000000000000000000000000000000000000000000,
        [⟨.functionBody, 0, 7⟩], []⟩,
      ⟨267, 0x400, [⟨.statement, 10, 10⟩], []⟩]
  | .statement =>
    [⟨268, 0x1620000000000000000000000000000000000000000000000000000000000000000000000000000001320000005400000000000fc1,
        [⟨.statements, 0, 1⟩, ⟨.statements, 1, 1⟩],
        [⟨.statements, .spliced, 1, 0x10040000086985dfd⟩]⟩,
      ⟨269, 0x40000000000000000000000000000000000000000000000000000000000000000000000000000000000000000000000000000000000000,
        [⟨.statements, 2, 2⟩, ⟨.statements, 3, 2⟩],
        [⟨.statements, .spliced, 2, 0x10040000086985dfd⟩]⟩]
  | .lastStatement =>
    [⟨270, 0x1620000000000000000000000000000000000000000000000000000000000000000000000000000001320000005400000000000fc1,
        [⟨.block, 2, 1⟩], [⟨.block, .block, 1, 0x20000e1⟩]⟩,
      ⟨271, 0x40000000000000000000000000000000000000000000000000000000000000000000000000000000000000000000000000000000000000,
        [⟨.block, 0, 2⟩], [⟨.block, .block, 2, 0x20000e1⟩]⟩]
  | .continueStatement =>
    [⟨272, 0x40001620000000000000000000000000000000000000000000000000000000000000000000000000000001320000005400000000000fc1,
        [⟨.lastStatement, 6, 1⟩, ⟨.lastStatement, 7, 1⟩],
        [⟨.lastStatement, .spliced, 1, 0x20000e1⟩]⟩]
  | .assignmentTargets =>
    [⟨273, 0x40001620000000000000000000000000000000000000000000000000000000000000000000000000000001320000005400000000000fc1,
        [⟨.statement, 0, 1⟩], []⟩]
  | .elseifClause =>
    [⟨274, 0x2000000000000000000000000000000000000000000000000000000000000000,
        [⟨.elseifClauses, 0, 1⟩], [⟨.elseifClauses, .spliced, 1, 0xe0⟩]⟩,
      ⟨275, 0x100000000000000000000000000000000000000000000000000000000000000000000000000000000000000000000000000000000000000,
        [⟨.elseifClauses, 1, 2⟩], [⟨.elseifClauses, .spliced, 2, 0xe0⟩]⟩]
  | .elseClause =>
    [⟨276, 0x2000000000000000000000000000000000000000000000000000000000000000,
        [⟨.statement, 8, 5⟩], []⟩,
      ⟨277, 0x100000000000000000000000000000000000000000000000000000000000000000000000000000000000000000000000000000000000000,
        [⟨.statement, 6, 6⟩], []⟩]
  | .bindingList =>
    [⟨278, 0x4000000000, [⟨.statement, 12, 2⟩], []⟩,
      ⟨279, 0x4000000000000,
        [⟨.statement, 17, 2⟩, ⟨.statement, 18, 2⟩],
        [⟨.statement, .localAssignment, 2, 0x10040200086985dfd⟩]⟩]
  | .binding =>
    [⟨280, 0x4000000000,
        [⟨.statement, 10, 2⟩, ⟨.statement, 11, 2⟩, ⟨.bindingList, 0, 1⟩, ⟨.bindingList, 1, 1⟩],
        [⟨.bindingList, .bindingList, 1, 0x2000⟩]⟩,
      ⟨281, 0x4000000000000,
        [⟨.bindingList, 0, 1⟩, ⟨.bindingList, 1, 1⟩],
        [⟨.bindingList, .bindingList, 1, 0x10042200086985dfd⟩]⟩,
      ⟨282, 0x20020000000000000000000000000,
        [⟨.furtherBindings, 0, 2⟩], [⟨.furtherBindings, .spliced, 2, 0x10042200986987dfd⟩]⟩,
      ⟨283, 0x1200000000000000000000,
        [⟨.parameterList, 0, 1⟩, ⟨.parameterList, 1, 1⟩, ⟨.parameterList, 2, 1⟩,
         ⟨.parameterList, 3, 1⟩],
        [⟨.parameterList, .spliced, 1, 0x100000000⟩]⟩,
      ⟨284, 0x100400000000000000000000000000,
        [⟨.furtherBindings, 1, 3⟩], [⟨.furtherBindings, .spliced, 3, 0x10042200986987dfd⟩]⟩]
  | .attribute =>
    [⟨285, 0x40001620000000000140000010c00000000000000000000000000008001005000105c000000000002108413208c180fc0380000000ffc1,
        [⟨.attributes, 0, 1⟩], [⟨.attributes, .spliced, 1, 0x40000000004800⟩]⟩,
      ⟨286, 0x1800000000000000000000000000000000000000000000000000000000000000000000000000000000000000000000000000000000000000,
        [⟨.attributes, 1, 2⟩], [⟨.attributes, .spliced, 2, 0x40000000004800⟩]⟩]
  | .attributeEntry =>
    [⟨287, 0x2000000000000000000000000000000000000000000000000,
        [⟨.attribute, 1, 3⟩, ⟨.attribute, 2, 3⟩], []⟩,
      ⟨288, 0x200000000000000000000000000,
        [⟨.furtherAttributeEntries, 0, 2⟩],
        [⟨.furtherAttributeEntries, .spliced, 2, 0x100000800000000⟩]⟩,
      ⟨289, 0x8000000000000000000000000000,
        [⟨.furtherAttributeEntries, 1, 3⟩],
        [⟨.furtherAttributeEntries, .spliced, 3, 0x100000800000000⟩]⟩]
  | .functionName =>
    [⟨290, 0x8000000000, [⟨.statement, 14, 2⟩], []⟩,
      ⟨291, 0x10000000000, [⟨.statement, 13, 3⟩], []⟩]
  | .functionBody =>
    [⟨292, 0x4000000000000000000000000000000000000000000000000000000000000000000000000,
        [⟨.statement, 14, 3⟩], [⟨.statement, .statement, 3, 0x10040200086985dfd⟩]⟩,
      ⟨293, 0x20000000000,
        [⟨.simpleExpression, 5, 2⟩], [⟨.simpleExpression, .function, 2, 0x1335d769fa6ba5dff⟩]⟩,
      ⟨294, 0x8000000000000000000000000000000000000000000000000000000000000000000000000,
        [⟨.statement, 13, 4⟩], [⟨.statement, .statement, 4, 0x10040200086985dfd⟩]⟩,
      ⟨295, 0x400000000000,
        [⟨.simpleExpression, 4, 3⟩], [⟨.simpleExpression, .function, 3, 0x1335d769fa6ba5dff⟩]⟩,
      ⟨296, 0x10000000000000000000000000000000000000000000000000000000000,
        [⟨.statement, 16, 4⟩], [⟨.statement, .statement, 4, 0x10040200086985dfd⟩]⟩,
      ⟨297, 0x20000000000000000000000000000000000000000000000000000000000,
        [⟨.statement, 26, 4⟩], [⟨.statement, .typeFunction, 4, 0x10040200086985dfd⟩]⟩,
      ⟨298, 0x40000000000000000000000000000000000000000000000000000000000,
        [⟨.statement, 15, 5⟩], [⟨.statement, .statement, 5, 0x10040200086985dfd⟩]⟩,
      ⟨299, 0x800000000000000000000000000000000000000000000000000000000000,
        [⟨.statement, 25, 5⟩], [⟨.statement, .typeFunction, 5, 0x10040200086985dfd⟩]⟩]
  | .parameterList =>
    [⟨300, 0x200000000000000000000, [⟨.functionBody, 4, 2⟩, ⟨.functionBody, 5, 2⟩], []⟩,
      ⟨301, 0x1000000000000000000000, [⟨.functionBody, 0, 3⟩, ⟨.functionBody, 1, 3⟩], []⟩]
  | .variadicParameter =>
    [⟨302, 0x1200000000000000000000,
        [⟨.parameterList, 4, 1⟩], [⟨.parameterList, .spliced, 1, 0x100000000⟩]⟩,
      ⟨303, 0x20000000000000000000000000000,
        [⟨.parameterList, 2, 3⟩], [⟨.parameterList, .spliced, 3, 0x100000000⟩]⟩,
      ⟨304, 0x100000000000000000000000000000,
        [⟨.parameterList, 0, 4⟩], [⟨.parameterList, .spliced, 4, 0x100000000⟩]⟩]
  | .expressionList =>
    [⟨305, 0x800000000000000,
        [⟨.lastStatement, 0, 2⟩, ⟨.lastStatement, 1, 2⟩],
        [⟨.lastStatement, .returnStatement, 2, 0x20000e1⟩]⟩,
      ⟨306, 0x400000000000000000000000000000000000000000,
        [⟨.statement, 0, 3⟩], [⟨.statement, .statement, 3, 0x10040200086985dfd⟩]⟩,
      ⟨307, 0x80000000000000000000, [⟨.callArguments, 0, 2⟩], []⟩,
      ⟨308, 0x2000000000000, [⟨.statement, 12, 4⟩], []⟩,
      ⟨309, 0x1000000000000000000000000000000000000000000,
        [⟨.statement, 17, 4⟩], [⟨.statement, .localAssignment, 4, 0x10040200086985dfd⟩]⟩]
  | .expression =>
    [⟨310, 0x800000000000,
        [⟨.statement, 6, 2⟩, ⟨.statement, 7, 2⟩, ⟨.statement, 8, 2⟩, ⟨.statement, 9, 2⟩], []⟩,
      ⟨311, 0x1400000000000000000000080000802000000000000,
        [⟨.expressionList, 0, 1⟩, ⟨.expressionList, 1, 1⟩],
        [⟨.expressionList, .expressionList, 1, 0x10040200186985dfd⟩]⟩,
      ⟨312, 0x1000000000000000000, [⟨.statement, 4, 2⟩], []⟩,
      ⟨313, 0x40000000000000000000, [⟨.primaryExpression, 1, 2⟩], []⟩,
      ⟨314, 0x8000000000000000000000000000000000000000000000000000000,
        [⟨.statement, 1, 3⟩], [⟨.statement, .statement, 3, 0x10040200086985dfd⟩]⟩,
      ⟨315, 0x140000000000000000000000000000000000000001000000000000000000000000000000000000000000000000000,
        [⟨.tableField, 2, 1⟩], [⟨.tableField, .spliced, 1, 0x1000200800000000⟩]⟩,
      ⟨316, 0x1000000000000000000000000000000000000000000000000,
        [⟨.suffixedExpression, 2, 3⟩], []⟩,
      ⟨317, 0x1000000000000, [⟨.simpleExpression, 6, 2⟩, ⟨.simpleExpression, 7, 2⟩], []⟩,
      ⟨318, 0x4000000000000000000000000000000000000000000000000, [⟨.tableField, 0, 2⟩], []⟩,
      ⟨319, 0x800000000000000000000000000000000000000000,
        [⟨.statement, 10, 4⟩, ⟨.statement, 11, 4⟩], []⟩,
      ⟨320, 0x800000000000000000,
        [⟨.statement, 5, 4⟩], [⟨.statement, .statement, 4, 0x10040200086985dfd⟩]⟩,
      ⟨321, 0x40000000000000000000000000,
        [⟨.furtherExpressions, 0, 2⟩], [⟨.furtherExpressions, .spliced, 2, 0x10040200986985dfd⟩]⟩,
      ⟨322, 0x800000000000000000000, [⟨.simpleType, 5, 3⟩], []⟩,
      ⟨323, 0x4000000000000000000000000000000000000000000,
        [⟨.tableField, 1, 3⟩], [⟨.tableField, .spliced, 3, 0x1000200800000000⟩]⟩,
      ⟨324, 0x2000000000000000, [⟨.simpleExpression, 6, 4⟩, ⟨.simpleExpression, 7, 4⟩], []⟩,
      ⟨325, 0x800000000000000000000000000,
        [⟨.furtherExpressions, 1, 3⟩], [⟨.furtherExpressions, .spliced, 3, 0x10040200986985dfd⟩]⟩,
      ⟨326, 0x10000000000000000000000000000, [⟨.statement, 10, 6⟩, ⟨.statement, 11, 6⟩], []⟩,
      ⟨327, 0x4000, [⟨.elseifClause, 0, 2⟩], []⟩,
      ⟨328, 0x100000000000000000000000000000000000000000000,
        [⟨.tableField, 0, 5⟩], [⟨.tableField, .spliced, 5, 0x1000200800000000⟩]⟩,
      ⟨329, 0x1000,
        [⟨.simpleExpression, 7, 6⟩], [⟨.simpleExpression, .ifExpression, 6, 0x1335d769fa6ba5dff⟩]⟩,
      ⟨330, 0x8000, [⟨.elseifExpression, 0, 2⟩], []⟩,
      ⟨331, 0x200000000000000000000000000000, [⟨.statement, 10, 8⟩], []⟩,
      ⟨332, 0x2000,
        [⟨.simpleExpression, 6, 7⟩], [⟨.simpleExpression, .ifExpression, 7, 0x1335d769fa6ba5dff⟩]⟩,
      ⟨333, 0x8000000000000000,
        [⟨.elseifExpression, 0, 4⟩], [⟨.elseifExpression, .spliced, 4, 0x60⟩]⟩]
  | .binaryOperator =>
    [⟨334, 0x1000000000000000000000000000000000000000000000000000000000000000000000000000000000000,
        [⟨.operations, 0, 1⟩], []⟩,
      ⟨335, 0x10000000000000000000000000000000000000000000000000000000000000000000000000000000000000000000000000000000000000000,
        [⟨.operations, 1, 2⟩], []⟩]
  | .unaryExpression =>
    [⟨336, 0x140000000000000000000000000000000000008001005000105c000000000002108400008c180a80380000000f000,
        [⟨.expression, 0, 1⟩, ⟨.expression, 1, 1⟩],
        [⟨.expression, .spliced, 1, 0x11140300986b85dfd⟩]⟩,
      ⟨337, 0x10000000000000000000000000000000000000000000000000000000000000000000000000000000000000,
        [⟨.unaryExpression, 0, 2⟩], [⟨.unaryExpression, .unaryOperation, 2, 0x1335d769fa6ba5dff⟩]⟩,
      ⟨338, 0x400000000000000000000000000000000000000000000000000000000000000000000000000000000000,
        [⟨.operations, 0, 2⟩], [⟨.operations, .spliced, 2, 0x1335d769fa6ba5dff⟩]⟩,
      ⟨339, 0x800000000000000000000000000000000000000000000000000000000000000000000000000000000000,
        [⟨.operations, 1, 3⟩], [⟨.operations, .spliced, 3, 0x1335d769fa6ba5dff⟩]⟩]
  | .unaryOperator =>
    [⟨340, 0x140000010c00000000000000000000000000008001005000105c000000000002108400008c180a80380000000f000,
        [⟨.unaryExpression, 0, 1⟩], []⟩]
  | .typeAssertion =>
    [⟨341, 0x140000010c00000000000000000000000000008001005000105c000000000002108400008c180a80380000000f000,
        [⟨.unaryExpression, 1, 1⟩], [⟨.unaryExpression, .spliced, 1, 0x1335d769fa6ba5dff⟩]⟩]
  | .simpleExpression =>
    [⟨342, 0x140000010c00000000000000000000000000008001005000105c000000000002108400008c180a80380000000f000,
        [⟨.typeAssertion, 0, 1⟩, ⟨.typeAssertion, 1, 1⟩],
        [⟨.typeAssertion, .spliced, 1, 0x1335d669fa6ba5dff⟩]⟩]
  | .elseifExpression =>
    [⟨343, 0x1000000000000000000000000000000000000000000000000000000000000000000000000000000000,
        [⟨.elseifExpressions, 0, 1⟩], [⟨.elseifExpressions, .spliced, 1, 0x60⟩]⟩,
      ⟨344, 0x40000000000000000000000000000000000000000000000000000000000000000000000000000000000000000000000000000000000000000,
        [⟨.elseifExpressions, 1, 2⟩], [⟨.elseifExpressions, .spliced, 2, 0x60⟩]⟩]
  | .literal =>
    [⟨345, 0x140000010c00000000000000000000000000008001005000105c000000000002108400008c180a80380000000f000,
        [⟨.simpleExpression, 0, 1⟩], [⟨.simpleExpression, .spliced, 1, 0x1335d769fa6ba5dff⟩]⟩]
  | .string =>
    [⟨346, 0x8f000000000000000000000000000004400000000000000000000000000000000000000000000000000000000,
        [⟨.callArguments, 3, 1⟩], [⟨.callArguments, .stringArguments, 1, 0x577dffedfa6ba5dff⟩]⟩,
      ⟨347, 0x140000010c00000000000000000000000000008001005000105c000000000002108400008c180a80380000000f000,
        [⟨.simpleExpression, 1, 1⟩], [⟨.simpleExpression, .spliced, 1, 0x1335d769fa6ba5dff⟩]⟩]
  | .suffixedExpression =>
    [⟨348, 0x40001620000000000000000000000000000000000000000000000000000000000000000000000000000001320000005400000000000fc1,
        [⟨.statement, 1, 1⟩, ⟨.statement, 2, 1⟩, ⟨.assignmentTargets, 0, 1⟩,
         ⟨.assignmentTargets, 1, 1⟩, ⟨.suffixedExpression, 1, 1⟩, ⟨.suffixedExpression, 2, 1⟩,
         ⟨.suffixedExpression, 3, 1⟩, ⟨.suffixedExpression, 4, 1⟩, ⟨.suffixedExpression, 5, 1⟩,
         ⟨.suffixedExpression, 6, 1⟩],
        [⟨.statement, .callStatement, 1, 0x10040200006985dfd⟩,
         ⟨.assignmentTargets, .spliced, 1, 0x2000000000000⟩]⟩,
      ⟨349, 0x140000010c00000000000000000000000000008001005000105c000000000002108400008c180a80380000000f000,
        [⟨.simpleExpression, 8, 1⟩, ⟨.suffixedExpression, 1, 1⟩, ⟨.suffixedExpression, 2, 1⟩,
         ⟨.suffixedExpression, 3, 1⟩, ⟨.suffixedExpression, 4, 1⟩, ⟨.suffixedExpression, 5, 1⟩,
         ⟨.suffixedExpression, 6, 1⟩],
        [⟨.simpleExpression, .spliced, 1, 0x1335d769f26ba5dff⟩]⟩,
      ⟨350, 0x8000000000000000000000000,
        [⟨.suffixedExpression, 1, 1⟩, ⟨.suffixedExpression, 2, 1⟩, ⟨.suffixedExpression, 3, 1⟩,
         ⟨.suffixedExpression, 4, 1⟩, ⟨.suffixedExpression, 5, 1⟩, ⟨.suffixedExpression, 6, 1⟩,
         ⟨.furtherTargets, 0, 2⟩],
        [⟨.furtherTargets, .spliced, 2, 0x2000800000000⟩]⟩,
      ⟨351, 0x10000000000000000000000000,
        [⟨.suffixedExpression, 1, 1⟩, ⟨.suffixedExpression, 2, 1⟩, ⟨.suffixedExpression, 3, 1⟩,
         ⟨.suffixedExpression, 4, 1⟩, ⟨.suffixedExpression, 5, 1⟩, ⟨.suffixedExpression, 6, 1⟩,
         ⟨.furtherTargets, 1, 3⟩],
        [⟨.furtherTargets, .spliced, 3, 0x2000800000000⟩]⟩]
  | .primaryExpression =>
    [⟨352, 0x40001620000000000140000010c00000000000000000000000000008001005000105c000000000002108593208c180fc0380000000ffc1,
        [⟨.suffixedExpression, 0, 1⟩], [⟨.suffixedExpression, .spliced, 1, 0x577dffedfa6ba5dff⟩]⟩]
  | .nameExpression =>
    [⟨353, 0x40001620000000000140000010c00000000000000000000000000008001005000105c000000000002108593208c180fc0380000000ffc1,
        [⟨.primaryExpression, 0, 1⟩], [⟨.primaryExpression, .spliced, 1, 0x577dffedfa6ba5dff⟩]⟩]
  | .typeInstantiation =>
    [⟨354, 0xf000000000000000000000000000000000000000000000000000000000000000000000000000000000000000,
        [⟨.suffixedExpression, 3, 2⟩],
        [⟨.suffixedExpression, .instantiation, 2, 0x577dffedfa6ba5dff⟩]⟩,
      ⟨355, 0x400000000000000000000000000000000000000000000000000000000,
        [⟨.suffixedExpression, 5, 4⟩], []⟩]
  | .callArguments =>
    [⟨356, 0xf000000000000000000000000000000000000000000000000000000000000000000000000000000000000000,
        [⟨.suffixedExpression, 4, 2⟩], [⟨.suffixedExpression, .call, 2, 0x577dffedfa6ba5dff⟩]⟩,
      ⟨357, 0x400000000000000000000000000000000000000000000000000000000,
        [⟨.suffixedExpression, 6, 4⟩],
        [⟨.suffixedExpression, .methodCall, 4, 0x577dffedfa6ba5dff⟩]⟩,
      ⟨358, 0x4000000000000000000000000000000000000000000000000000000000,
        [⟨.attributeEntry, 0, 2⟩], [⟨.attributeEntry, .spliced, 2, 0x100000800000000⟩]⟩,
      ⟨359, 0x80000000000000000000000000000000000000000000000000000000000000000000000000000000000000000,
        [⟨.suffixedExpression, 5, 5⟩],
        [⟨.suffixedExpression, .methodCall, 5, 0x577dffedfa6ba5dff⟩]⟩]
  | .tableConstructor =>
    [⟨360, 0x8f000000000000000000000000000004400000000000000000000000000000000000000000000000000000000,
        [⟨.callArguments, 2, 1⟩], [⟨.callArguments, .tableArguments, 1, 0x577dffedfa6ba5dff⟩]⟩,
      ⟨361, 0x140000010c00000000000000000000000000008001005000105c000000000002108400008c180a80380000000f000,
        [⟨.simpleExpression, 3, 1⟩], [⟨.simpleExpression, .spliced, 1, 0x1335d769fa6ba5dff⟩]⟩]
  | .tableField =>
    [⟨362, 0x1000000000000000000000000000000000000000000000000000,
        [⟨.tableConstructor, 0, 2⟩, ⟨.tableConstructor, 1, 2⟩, ⟨.tableConstructor, 2, 2⟩,
         ⟨.tableConstructor, 3, 2⟩],
        []⟩,
      ⟨363, 0x40000000000000000000000000000000000000000000000000000000000000000000000000000000000000000000,
        [⟨.furtherFields, 0, 2⟩], [⟨.furtherFields, .spliced, 2, 0x1000200800000000⟩]⟩,
      ⟨364, 0x100000000000000000000000000000000000000000000000000000000000000000000000000000000000000000000,
        [⟨.furtherFields, 1, 3⟩], [⟨.furtherFields, .spliced, 3, 0x1000200800000000⟩]⟩]
  | .fieldName =>
    [⟨365, 0x140000000000000000000000000000000000000001000000000000000000000000000000000000000000000000000,
        [⟨.tableField, 1, 1⟩], []⟩]
  | .fieldSeparator =>
    [⟨366, 0x4000000000000000000000000000000000000000000000000000000000000000000000000000000000000000000,
        [⟨.tableConstructor, 2, 3⟩, ⟨.furtherFields, 0, 1⟩], []⟩,
      ⟨367, 0x4000000000000000000000000000000000000000000000000000000000000000000000000000000000000000000000000000000000,
        [⟨.tableType, 4, 3⟩, ⟨.furtherTypeFields, 0, 1⟩], []⟩,
      ⟨368, 0x200000000000000000000000000000000000000000000000000000000000000000000000000000000000000000000000000000000000000000,
        [⟨.tableConstructor, 0, 4⟩, ⟨.furtherFields, 1, 2⟩], []⟩,
      ⟨369, 0x2000000000000000000000000000000000000000000000000000000000000000000000000000000000000000000000000000000000000000000,
        [⟨.tableType, 2, 4⟩, ⟨.furtherTypeFields, 1, 2⟩], []⟩]
  | .type =>
    [⟨370, 0xa0140016e0000f043080000500000000000000000000,
        [⟨.typeOrPack, 0, 1⟩], [⟨.typeOrPack, .spliced, 1, 0x13b7f769fe6ba7dff⟩]⟩,
      ⟨371, 0x400000000000000000000000000000000,
        [⟨.typeOrPack, 1, 2⟩], [⟨.typeOrPack, .variadicType, 2, 0x13b7f769fe6ba7dff⟩]⟩,
      ⟨372, 0x2000000000000000000000000000000000000000000000000000, [⟨.tableType, 1, 2⟩], []⟩,
      ⟨373, 0x20000000000000000000000000000000000,
        [⟨.binding, 0, 3⟩], [⟨.binding, .binding, 3, 0x10042200986987dfd⟩]⟩,
      ⟨374, 0x40000000000000000000000000000000000000,
        [⟨.assertions, 0, 2⟩], [⟨.assertions, .spliced, 2, 0x1335d769fa6ba5dff⟩]⟩,
      ⟨375, 0x2000000000000000000000000000000000000000000,
        [⟨.statement, 22, 4⟩], [⟨.statement, .typeDeclaration, 4, 0x10040200086985dfd⟩]⟩,
      ⟨376, 0x8000000000000000000000000000000000000000000000000, [⟨.tableTypeField, 1, 2⟩], []⟩,
      ⟨377, 0x8000000000000000000000000000000000000000000,
        [⟨.statement, 20, 5⟩], [⟨.statement, .typeDeclaration, 5, 0x10040200086985dfd⟩]⟩,
      ⟨378, 0x80000000000000000000000000000000000000,
        [⟨.assertions, 1, 3⟩], [⟨.assertions, .spliced, 3, 0x1335d769fa6ba5dff⟩]⟩,
      ⟨379, 0x10000000000000000000000000000000000000000000,
        [⟨.statement, 21, 5⟩], [⟨.statement, .typeDeclaration, 5, 0x10040200086985dfd⟩]⟩,
      ⟨380, 0x10000000000000000000000000000000000000000000000000, [⟨.tableTypeField, 0, 3⟩], []⟩,
      ⟨381, 0x100000000000000000000000000000000000,
        [⟨.tableTypeField, 3, 3⟩], [⟨.tableTypeField, .spliced, 3, 0x1000200800000000⟩]⟩,
      ⟨382, 0x40000000000000000000000000000000000000000000,
        [⟨.statement, 19, 6⟩], [⟨.statement, .typeDeclaration, 6, 0x10040200086985dfd⟩]⟩,
      ⟨383, 0x100000000000000000000000000000000000000000000000,
        [⟨.statement, 24, 6⟩], [⟨.statement, .typeDeclaration, 6, 0x10040200086985dfd⟩]⟩,
      ⟨384, 0x1000000000000000000000000000000000000,
        [⟨.tableTypeField, 2, 4⟩], [⟨.tableTypeField, .spliced, 4, 0x1000200800000000⟩]⟩,
      ⟨385, 0x200000000000000000000000000000000000000000000000,
        [⟨.statement, 23, 7⟩], [⟨.statement, .typeDeclaration, 7, 0x10040200086985dfd⟩]⟩,
      ⟨386, 0x8000000000000000000000000000000000000,
        [⟨.tableTypeField, 1, 5⟩], [⟨.tableTypeField, .spliced, 5, 0x1000200800000000⟩]⟩,
      ⟨387, 0x20000000000000000000000000000000000000,
        [⟨.tableTypeField, 0, 6⟩], [⟨.tableTypeField, .spliced, 6, 0x1000200800000000⟩]⟩]
  | .typeOperator =>
    [⟨388, 0x20183000fa1400fff2040f043080000500000000000000000000,
        [⟨.type, 2, 1⟩, ⟨.type, 3, 1⟩], []⟩,
      ⟨389, 0x180000000000000000000000000000000000000000000000000000000000000000000000000000000000000000000000000,
        [⟨.furtherMembers, 0, 1⟩], []⟩,
      ⟨390, 0xc00000000000000000000000000000000000000000000000000000000000000000000000000000000000000000000000000000000000000000,
        [⟨.furtherMembers, 1, 2⟩], []⟩]
  | .postfixType =>
    [⟨391, 0x20183000fa1400fff2040f043080000500000000000000000000,
        [⟨.type, 0, 1⟩, ⟨.type, 1, 1⟩, ⟨.postfixType, 1, 1⟩],
        [⟨.type, .spliced, 1, 0x1335f769fa6ba7dff⟩]⟩,
      ⟨392, 0x10000000000000000000000000000000000000000000000000000000000000000000000000000000000000000000000000,
        [⟨.type, 2, 2⟩, ⟨.type, 3, 2⟩, ⟨.postfixType, 1, 1⟩],
        [⟨.type, .unionType, 2, 0x1335f769fa6ba7dff⟩]⟩,
      ⟨393, 0x20000000000000000000000000000000000000000000000000000000000000000000000000000000000000000000000000,
        [⟨.postfixType, 1, 1⟩, ⟨.furtherMembers, 0, 2⟩],
        [⟨.furtherMembers, .spliced, 2, 0x13b5f769fe6ba7dff⟩]⟩,
      ⟨394, 0x40000000000000000000000000000000000000000000000000000000000000000000000000000000000000000000000000,
        [⟨.postfixType, 1, 1⟩, ⟨.furtherMembers, 1, 3⟩],
        [⟨.furtherMembers, .spliced, 3, 0x13b5f769fe6ba7dff⟩]⟩]
  | .simpleType =>
    [⟨395, 0x700000000000000000000000000000000000000000000020183000fa1400fff2040f043080000500000000000000000000,
        [⟨.postfixType, 0, 1⟩], [⟨.postfixType, .spliced, 1, 0x13b7f769fe6ba7dff⟩]⟩]
  | .typeReference =>
    [⟨396, 0x700000000000000000000000000000000000000000000020183000fa1400fff2040f043080000500000000000000000000,
        [⟨.simpleType, 0, 1⟩], [⟨.simpleType, .spliced, 1, 0x13b7f769fe6ba7dff⟩]⟩]
  | .typeArguments =>
    [⟨397, 0x381000000000000000000000000000000000000000000000000000000000,
        [⟨.typeReference, 0, 2⟩], [⟨.typeReference, .typeReference, 2, 0x13b7f769fe6ba7dff⟩]⟩,
      ⟨398, 0x8000000000000000000000000000000000000000000000000000000000000,
        [⟨.typeReference, 2, 4⟩], [⟨.typeReference, .typeReference, 4, 0x13b7f769fe6ba7dff⟩]⟩]
  | .typeList =>
    [⟨399, 0x100000000000000000000, [⟨.simpleType, 7, 2⟩, ⟨.simpleType, 9, 2⟩], []⟩,
      ⟨400, 0x400000000000000000000, [⟨.simpleType, 11, 3⟩], []⟩]
  | .typeListItem =>
    [⟨401, 0x500000000000000000000,
        [⟨.typeList, 0, 1⟩, ⟨.typeList, 1, 1⟩], [⟨.typeList, .typeList, 1, 0x100000000⟩]⟩,
      ⟨402, 0x2000000000000000000000000000,
        [⟨.furtherListItems, 0, 2⟩], [⟨.furtherListItems, .spliced, 2, 0x900000000⟩]⟩,
      ⟨403, 0x40000000000000000000000000000,
        [⟨.furtherListItems, 1, 3⟩], [⟨.furtherListItems, .spliced, 3, 0x900000000⟩]⟩]
  | .typeOrPack =>
    [⟨404, 0x100000000000000000000000000000000000000000,
        [⟨.typeInstantiation, 0, 2⟩, ⟨.typeInstantiation, 1, 2⟩], []⟩,
      ⟨405, 0x42000000500000000000000000000,
        [⟨.typeListItem, 1, 1⟩], [⟨.typeListItem, .spliced, 1, 0x900000000⟩]⟩,
      ⟨406, 0x80000000000000000000000000,
        [⟨.furtherTypesOrPacks, 0, 2⟩], [⟨.furtherTypesOrPacks, .spliced, 2, 0x8000800000000⟩]⟩,
      ⟨407, 0x40000000000000000000000000000000000000000,
        [⟨.typeArguments, 0, 2⟩, ⟨.typeArguments, 1, 2⟩], []⟩,
      ⟨408, 0x1000000000000000000000000000,
        [⟨.furtherTypesOrPacks, 1, 3⟩], [⟨.furtherTypesOrPacks, .spliced, 3, 0x8000800000000⟩]⟩,
      ⟨409, 0x200000000000000000000000000000000000,
        [⟨.typeListItem, 0, 3⟩], [⟨.typeListItem, .spliced, 3, 0x900000000⟩]⟩,
      ⟨410, 0x1000000000000000000000000000000,
        [⟨.simpleType, 10, 4⟩], [⟨.simpleType, .functionType, 4, 0x13b7f769fe6ba7dff⟩]⟩,
      ⟨411, 0x20000000000000000000000000000000000000000000,
        [⟨.genericParameter, 0, 3⟩],
        [⟨.genericParameter, .genericParameter, 3, 0x18000800000000⟩]⟩,
      ⟨412, 0x400000000000000000000000000000000000,
        [⟨.variadicParameter, 0, 3⟩], [⟨.variadicParameter, .spliced, 3, 0x100000000⟩]⟩,
      ⟨413, 0x800000000000000000000000000000000000,
        [⟨.functionBody, 6, 4⟩], [⟨.block, .block, 0, 0x80⟩]⟩,
      ⟨414, 0x2000000000000000000000000000000,
        [⟨.simpleType, 12, 5⟩], [⟨.simpleType, .functionType, 5, 0x13b7f769fe6ba7dff⟩]⟩,
      ⟨415, 0x4000000000000000000000000000000,
        [⟨.simpleType, 9, 5⟩], [⟨.simpleType, .functionType, 5, 0x13b7f769fe6ba7dff⟩]⟩,
      ⟨416, 0x80000000000000000000000000000000000000000000,
        [⟨.genericParameter, 2, 4⟩],
        [⟨.genericParameter, .genericPackParameter, 4, 0x18000800000000⟩]⟩,
      ⟨417, 0x2000000000000000000000000000000000000,
        [⟨.functionBody, 2, 5⟩], [⟨.block, .block, 0, 0x80⟩]⟩,
      ⟨418, 0x4000000000000000000000000000000000000,
        [⟨.functionBody, 4, 5⟩], [⟨.block, .block, 0, 0x80⟩]⟩,
      ⟨419, 0x8000000000000000000000000000000,
        [⟨.simpleType, 11, 6⟩], [⟨.simpleType, .functionType, 6, 0x13b7f769fe6ba7dff⟩]⟩,
      ⟨420, 0x10000000000000000000000000000000000000,
        [⟨.functionBody, 0, 6⟩], [⟨.block, .block, 0, 0x80⟩]⟩]
  | .tableType =>
    [⟨421, 0x700000000000000000000000000000000000000000000020183000fa1400fff2040f043080000500000000000000000000,
        [⟨.simpleType, 6, 1⟩], [⟨.simpleType, .spliced, 1, 0x13b7f769fe6ba7dff⟩]⟩]
  | .tableTypeField =>
    [⟨422, 0x2000000000000000000000000000000000000000000000000000,
        [⟨.tableType, 2, 2⟩, ⟨.tableType, 3, 2⟩, ⟨.tableType, 4, 2⟩, ⟨.tableType, 5, 2⟩], []⟩,
      ⟨423, 0x80000000000000000000000000000000000000000000000000000000000000000000000000000000000000000000,
        [⟨.furtherTypeFields, 0, 2⟩], [⟨.furtherTypeFields, .spliced, 2, 0x1000200800000000⟩]⟩,
      ⟨424, 0x200000000000000000000000000000000000000000000000000000000000000000000000000000000000000000000,
        [⟨.furtherTypeFields, 1, 3⟩], [⟨.furtherTypeFields, .spliced, 3, 0x1000200800000000⟩]⟩]
  | .access =>
    [⟨425, 0x280000000000000000000000000000000000000002000000000000000000000000000000000000000000000000000,
        [⟨.tableTypeField, 0, 1⟩, ⟨.tableTypeField, 2, 1⟩], []⟩]
  | .propertyName =>
    [⟨426, 0x280000000000000000000000000000000000000002000000000000000000000000000000000000000000000000000,
        [⟨.tableTypeField, 3, 1⟩], []⟩,
      ⟨427, 0x20000000000000000000000000000000000000000000000000000000000000000000000000000000000000000000000000000000000,
        [⟨.tableTypeField, 2, 2⟩], []⟩]
  | .genericParameters =>
    [⟨428, 0x700000000000000000000000000000000000000000000020183000fa1400fff2040f043080000500000000000000000000,
        [⟨.simpleType, 11, 1⟩, ⟨.simpleType, 12, 1⟩], []⟩,
      ⟨429, 0xc000000000000870000000000000000000000000000000000000000000000420000000000,
        [⟨.functionBody, 0, 1⟩, ⟨.functionBody, 1, 1⟩, ⟨.functionBody, 2, 1⟩,
         ⟨.functionBody, 3, 1⟩],
        []⟩,
      ⟨430, 0x200000000000000000000000000000000000000000000000000000000,
        [⟨.statement, 21, 3⟩], []⟩,
      ⟨431, 0x8000000000000000000000000000000000000000000000000000000000,
        [⟨.statement, 19, 4⟩], []⟩]
  | .genericParameterList =>
    [⟨432, 0x8000000000000000000000000000000000000000, [⟨.genericParameters, 0, 2⟩], []⟩,
      ⟨433, 0x20000000000000000000000000000000000000000,
        [⟨.statement, 24, 4⟩, ⟨.genericParameters, 0, 2⟩], []⟩,
      ⟨434, 0x80000000000000000000000000000000000000000,
        [⟨.statement, 23, 5⟩, ⟨.genericParameters, 0, 2⟩], []⟩]
  | .genericParameter =>
    [⟨435, 0xa8000000000000000000000000000000000000000,
        [⟨.genericParameterList, 0, 1⟩, ⟨.genericParameterList, 1, 1⟩],
        [⟨.genericParameterList, .genericParameterList, 1, 0x18000000000000⟩]⟩,
      ⟨436, 0x4000000000000000000000000000,
        [⟨.furtherGenericParameters, 0, 2⟩],
        [⟨.furtherGenericParameters, .spliced, 2, 0x18000800000000⟩]⟩,
      ⟨437, 0x80000000000000000000000000000,
        [⟨.furtherGenericParameters, 1, 3⟩],
        [⟨.furtherGenericParameters, .spliced, 3, 0x18000800000000⟩]⟩]
  | .statements =>
    [⟨438, 0x1620000000000000000000000000000000000000000000000000000000000000000000000000000001320000005400000000000fc1,
        [⟨.block, 0, 1⟩, ⟨.block, 1, 1⟩, ⟨.statements, 2, 1⟩, ⟨.statements, 3, 1⟩],
        [⟨.block, .block, 1, 0x20000e1⟩]⟩]
  | .furtherTargets =>
    [⟨439, 0x1000000000000000000000000000000000000000000000000000000000000000000000000000000000000000,
        [⟨.assignmentTargets, 0, 2⟩, ⟨.furtherTargets, 1, 1⟩],
        [⟨.assignmentTargets, .spliced, 2, 0x2000000000000⟩]⟩]
  | .elseifClauses =>
    [⟨440, 0x2000000000000000000000000000000000000000000000000000000000000000,
        [⟨.statement, 6, 5⟩, ⟨.statement, 7, 5⟩, ⟨.elseifClauses, 1, 1⟩], []⟩]
  | .furtherBindings =>
    [⟨441, 0x30000000000000000000000000000000000000000000000000000000000000000000000,
        [⟨.bindingList, 0, 2⟩, ⟨.furtherBindings, 1, 1⟩],
        [⟨.bindingList, .bindingList, 2, 0x10042200086987dfd⟩]⟩,
      ⟨442, 0x80000000000000000000000000000000000000000000000000000000000000000000000,
        [⟨.parameterList, 0, 2⟩, ⟨.parameterList, 1, 2⟩, ⟨.furtherBindings, 1, 1⟩],
        [⟨.parameterList, .spliced, 2, 0x100000000⟩]⟩]
  | .attributes =>
    [⟨443, 0x40001620000000000000000000000000000000000000000000000000000000000000000000000000000001320000005400000000000fc1,
        [⟨.statement, 13, 1⟩, ⟨.statement, 15, 1⟩, ⟨.attributes, 1, 1⟩], []⟩,
      ⟨444, 0x140000010c00000000000000000000000000008001005000105c000000000002108400008c180a80380000000f000,
        [⟨.simpleExpression, 4, 1⟩, ⟨.attributes, 1, 1⟩], []⟩]
  | .furtherAttributeEntries =>
    [⟨445, 0x800000000000000000000000000000000000000000000000000000000000000000000000,
        [⟨.attribute, 1, 4⟩, ⟨.furtherAttributeEntries, 1, 1⟩], []⟩]
  | .nameSuffixes =>
    [⟨446, 0x100000000000000000000000000000000000000000000000000000000,
        [⟨.functionName, 0, 2⟩, ⟨.functionName, 1, 2⟩, ⟨.nameSuffixes, 1, 1⟩],
        [⟨.functionName, .spliced, 2, 0x400080000000⟩]⟩]
  | .furtherExpressions =>
    [⟨447, 0x800000000000000000000000000000000000000000000000000000000000000000000000000000,
        [⟨.expressionList, 0, 2⟩, ⟨.furtherExpressions, 1, 1⟩],
        [⟨.expressionList, .expressionList, 2, 0x10040200186985dfd⟩]⟩]
  | .operations =>
    [⟨448, 0x1000000000000000000000000000000000000000000000000000000000000000000000000000000000000,
        [⟨.expression, 0, 2⟩, ⟨.operations, 1, 1⟩],
        [⟨.expression, .operatorChain, 2, 0x11140300986b85dfd⟩]⟩]
  | .assertions =>
    [⟨449, 0x40000000000000000000000000000000000000000000000000000000000000000000000000000000000000,
        [⟨.typeAssertion, 0, 2⟩, ⟨.assertions, 1, 1⟩],
        [⟨.typeAssertion, .typeAssertion, 2, 0x1335d669fa6ba5dff⟩]⟩]
  | .elseifExpressions =>
    [⟨450, 0x1000000000000000000000000000000000000000000000000000000000000000000000000000000000,
        [⟨.simpleExpression, 6, 5⟩, ⟨.elseifExpressions, 1, 1⟩], []⟩]
  | .furtherTypesOrPacks =>
    [⟨451, 0x100000000000000000000000000000000000000000000000000000000000000000000000000000000000000000000000000000,
        [⟨.typeInstantiation, 0, 3⟩, ⟨.furtherTypesOrPacks, 1, 1⟩], []⟩,
      ⟨452, 0x800000000000000000000000000000000000000000000000000000000000000000000000000000000000000000000000000000,
        [⟨.typeArguments, 0, 3⟩, ⟨.furtherTypesOrPacks, 1, 1⟩], []⟩]
  | .furtherFields =>
    [⟨453, 0x4000000000000000000000000000000000000000000000000000000000000000000000000000000000000000000,
        [⟨.tableConstructor, 0, 3⟩, ⟨.tableConstructor, 1, 3⟩, ⟨.furtherFields, 1, 1⟩], []⟩]
  | .furtherMembers =>
    [⟨454, 0x80000000000000000000000000000000000000000000000000000000000000000000000000000000000000000000000000,
        [⟨.type, 1, 2⟩, ⟨.furtherMembers, 1, 1⟩], [⟨.type, .unionType, 2, 0x1337f769fa6ba7dff⟩]⟩,
      ⟨455, 0x100000000000000000000000000000000000000000000000000000000000000000000000000000000000000000000000000,
        [⟨.type, 2, 3⟩, ⟨.furtherMembers, 1, 1⟩], [⟨.type, .unionType, 3, 0x1337f769fa6ba7dff⟩]⟩]
  | .furtherListItems =>
    [⟨456, 0x20000000000000000000000000000000000000000000000000000000000000000000000000000000000000000000000000000,
        [⟨.typeList, 0, 2⟩, ⟨.furtherListItems, 1, 1⟩], [⟨.typeList, .typeList, 2, 0x100000000⟩]⟩]
  | .furtherTypeFields =>
    [⟨457, 0x4000000000000000000000000000000000000000000000000000000000000000000000000000000000000000000000000000000000,
        [⟨.tableType, 2, 3⟩, ⟨.tableType, 3, 3⟩, ⟨.furtherTypeFields, 1, 1⟩], []⟩]
  | .furtherGenericParameters =>
    [⟨458, 0x8000000000000000000000000000000000000000000000000000000000000000000000000000000000000000000000000000000000000,
        [⟨.genericParameterList, 0, 2⟩, ⟨.furtherGenericParameters, 1, 1⟩],
        [⟨.genericParameterList, .genericParameterList, 2, 0x18000000000000⟩]⟩]

end TypedLinks.Luau
