import DocStore.Value.Display

/-!
Misuse: failures that come from what a caller hands in rather than from a
filter, a server or an option, such as an empty name, a file that is not there,
or a value of a type that an operation is not made for.
-/

namespace DocStore

/-- A failure caused by what was handed in. -/
inductive Misuse where
  /-- The operation is not made for values of this type. -/
  | wrongType
  /-- The value is of the right type but not usable; with the words that say why. -/
  | badValue (reason : Text)
  /-- A document has no such field. -/
  | missingKey (key : Text)
  /-- The value has no such member or method. -/
  | noMember
  /-- A row has no such cell. -/
  | noCell
  /-- A remainder by zero. -/
  | zeroDivisor
  /-- An infinite number has no integer. -/
  | overflow
  /-- A text is not JSON. -/
  | notJson
  /-- Octets are not UTF-8. -/
  | notUtf8
  /-- A text with a lone surrogate has no UTF-8. -/
  | notEncodable
  /-- A regular expression is malformed; with the words that say where. -/
  | badPattern (reason : Text)
  /-- A table or column has no name. -/
  | emptyIdentifier
  /-- A collection has no name. -/
  | emptyCollection
  /-- A server reports no version. -/
  | emptyVersion
  /-- A server reports a version without a number. -/
  | unreadableVersion (raw : Text)
  /-- A document to insert is neither an object nor a list. -/
  | notInsertable (typeName : Text)
  /-- A log that keeps no record. -/
  | noRecords
  /-- A settings file without a path. -/
  | emptyPath
  /-- A settings file that must be there is not. -/
  | missingFile (path : Text)
  /-- A settings file is not JSON. -/
  | malformedFile (path : Text)
  /-- A settings file holds something else than an object. -/
  | fileNotObject (path : Text)
  /-- A connection that was not opened. -/
  | notConnected (name : Text)
  /-- A failure of the database library that is passed on as it is. -/
  | library (family text : Text)

namespace Misuse

/-- The words of a failure, where it has words of its own. -/
def message : Misuse → Text
  | .badValue reason => reason
  | .missingKey key => key.quoted
  | .badPattern reason => reason
  | .emptyIdentifier => "식별자 이름이 비어 있습니다."
  | .emptyCollection => "컬렉션 식별자가 비어 있습니다."
  | .emptyVersion => "서버 버전 문자열이 비어 있습니다."
  | .unreadableVersion raw => "서버 버전을 해석할 수 없습니다: " ++ raw
  | .notInsertable typeName => "삽입할 수 없는 문서 타입입니다: " ++ typeName
  | .noRecords => "max_records는 1 이상이어야 합니다."
  | .emptyPath => "path는 비어 있을 수 없습니다."
  | .missingFile path => path
  | .malformedFile path => "JSON 설정 파일 파싱에 실패했습니다: " ++ path
  | .fileNotObject path => "JSON 설정 파일은 최상위가 객체여야 합니다: " ++ path
  | .notConnected name => name ++ " 연결이 초기화되지 않았습니다."
  | .library _ text => text
  | _ => ""

end Misuse

end DocStore
