import DocStore.Engine.Basic
import DocStore.Fault.Report
import DocStore.Filter.Operator

/-!
Why a filter or a sort order has no SQL: an argument of the wrong form, an
operator that is not known, or one that only the host can evaluate.
-/

namespace DocStore

/-- What is wrong with an argument. -/
inductive ArgumentFault where
  /-- A field is not a text, or empty. -/
  | fieldName
  /-- A field path has an empty segment. -/
  | emptySegment (field : Text)
  /-- A text has a lone surrogate. -/
  | notEncodable
  /-- A value of this type has no literal. -/
  | notScalar (typeName : Text)
  /-- A comparison with something else than a scalar. -/
  | comparison (op : Operator)
  /-- Membership in something else than a list. -/
  | membership (op : Operator)
  /-- `$has` of something else than one scalar. -/
  | has
  /-- `$all` of something else than a list. -/
  | allList
  /-- `$all` of a list with something else than scalars. -/
  | allScalars
  /-- A regular expression is not a text, or empty. -/
  | regex
  /-- `$size` of something else than a natural number. -/
  | size
  /-- `$mod` of something else than a list of one or two. -/
  | modShape
  /-- `$mod` of a divisor that is zero, or of something else than numbers. -/
  | modNumbers
  /-- `$text` of something else than a text. -/
  | text
  /-- A filter is not an object. -/
  | filter
  /-- The clauses of a conjunction or disjunction are not a list. -/
  | clauses (key : Text)
  /-- A sort direction is not known. -/
  | direction (field : Text) (shown : Text)

namespace ArgumentFault

/-- What the argument belongs to. -/
def operator : ArgumentFault → Text
  | .fieldName | .emptySegment _ => "field"
  | .notEncodable | .notScalar _ => "value"
  | .comparison op => op.name
  | .membership op => op.name
  | .has => Operator.has.name
  | .allList | .allScalars => Operator.all.name
  | .regex => Operator.regex.name
  | .size => Operator.size.name
  | .modShape | .modNumbers => Operator.mod.name
  | .text => Operator.text.name
  | .filter => "filter"
  | .clauses key => key
  | .direction .. => "sort"

/-- The cause as it is told. -/
def cause : ArgumentFault → Text
  | .fieldName => "필드 이름은 비어 있지 않은 문자열이어야 합니다."
  | .emptySegment field => "비어 있는 경로 세그먼트가 있습니다: " ++ field
  | .notEncodable => "UTF-8로 인코딩할 수 없는 문자열입니다."
  | .notScalar typeName => "스칼라 값만 인용할 수 있습니다: " ++ typeName
  | .comparison _ => "비교 연산자는 스칼라 값이 필요합니다."
  | .membership op => op.name ++ "은 배열 값이 필요합니다."
  | .has => "$has는 단일 스칼라 값이 필요합니다."
  | .allList => "$all은 배열 값이 필요합니다."
  | .allScalars => "$all 배열은 스칼라 값만 허용합니다."
  | .regex => "정규식은 비어 있지 않은 문자열이어야 합니다."
  | .size => "$size는 0 이상의 정수가 필요합니다."
  | .modShape => "$mod는 [제수, 나머지] 배열이 필요합니다."
  | .modNumbers => "$mod 인자는 0이 아닌 제수와 숫자 나머지여야 합니다."
  | .text => "$text는 문자열 값이 필요합니다."
  | .filter => "필터는 매핑이어야 합니다."
  | .clauses key => key ++ "는 하위 필터 배열이 필요합니다."
  | .direction field shown => "알 수 없는 정렬 방향: " ++ field ++ "=" ++ shown

end ArgumentFault

/-- Why a filter has no SQL. -/
inductive FilterFault where
  /-- An argument has the wrong form. -/
  | argument (fault : ArgumentFault)
  /-- A key is no operator. -/
  | unknownOperator (key : Text)
  /-- A key is an operator that only the host evaluates. -/
  | hostOperator (key field : Text)
  /-- An engine has no SQL for an operator. -/
  | noSql (op : Operator) (engine : Engine)

namespace FilterFault

/-- The fault as it is told. -/
def report : FilterFault → Report
  | .argument fault =>
    .of .filter (fault.operator ++ " 연산자의 인자가 올바르지 않습니다.") .invalidArgument
      (some fault.cause) none [("operator", .str fault.operator)]
  | .unknownOperator key =>
    .of .filter ("invalid condition " ++ key) .invalidCondition
      (some ("알 수 없는 연산자: " ++ key)) none [("operator", .str key)]
  | .hostOperator key field =>
    .of .filter ("operator " ++ key ++ " is not supported") .operatorNotSupported
      (some (key ++ " 연산자는 호스트 콜백 실행이 필요합니다."))
      (some ("조건 함수 필터를 사용하세요." : Text))
      [("operator", .str key), ("field", .str field)]
  | .noSql op engine =>
    .of .filter ("operator " ++ op.name ++ " is not supported") .operatorNotSupported
      (some ("SQL 엔진에서 지원하지 않는 연산자: " ++ op.name)) none
      [("operator", .str op.name), ("dialect", .str engine.name)]

end FilterFault

end DocStore
