import LiteralSql.Json.Printer
import LiteralSql.Sql.Error

/-! What can go wrong when an operation is sent, or a document is read. -/

set_option autoImplicit false

namespace LiteralSql

inductive DecodeError
  | rootNotObject
  | expectedName
  | expectedColon
  | expectedValue
  | expectedMemberEnd
  | rowNotObject
  | expectedRowEnd
  | unbalancedBrackets
  | trailingData
  | invalidName
  | invalidValue (name : Text)
  | invalidRow
  | emptyBody
  | truncatedBody
  | notJson (body : Text)
  | missingJobId (document : Json)
  | featureNotObject
  | notFeature
  | propertiesNotObject
  | notGeometry (document : Json)
  | missingFeatures
  | notFeatureDocument
  | source (reason : Text)

/-- Stands for the reason why a text is not JSON. -/
def malformed : Text := "<json>".toList

def DecodeError.message : DecodeError → Text
  | .rootNotObject => "response root is not an object".toList
  | .expectedName => "expected a member name in response object".toList
  | .expectedColon => "expected `:` after member name".toList
  | .expectedValue => "expected a value in response object".toList
  | .expectedMemberEnd => "expected `,` or `\x7d` in response object".toList
  | .rowNotObject => "row is not an object".toList
  | .expectedRowEnd => "expected `,` or `]` in rows".toList
  | .unbalancedBrackets => "unbalanced brackets in response".toList
  | .trailingData => "trailing data after response document".toList
  | .invalidName => "invalid member name: ".toList ++ malformed
  | .invalidValue name => "invalid value for \"".toList ++ name ++ "\": ".toList ++ malformed
  | .invalidRow => "invalid row: ".toList ++ malformed
  | .emptyBody => "empty response body".toList
  | .truncatedBody => "response body ended mid-document".toList
  | .notJson body => malformed ++ ": ".toList ++ body
  | .missingJobId document => "job submission returned no job_id: ".toList ++ document.print
  | .featureNotObject => "feature is not an object".toList
  | .notFeature => "object is not a GeoJSON Feature".toList
  | .propertiesNotObject => "feature properties are not an object".toList
  | .notGeometry document => "feature geometry is not a GeoJSON geometry: ".toList ++ document.print
  | .missingFeatures => "feature collection has no features array".toList
  | .notFeatureDocument => "document is not a GeoJSON Feature or FeatureCollection".toList
  | .source reason => reason

inductive ConfigError
  | malformed
  | missingEndpoint
  | zone (error : SqlError)
  | unreadable (path reason : Text)
  deriving DecidableEq

def ConfigError.message : ConfigError → Text
  | .malformed => LiteralSql.malformed
  | .missingEndpoint => "either `base_url` or `username` is required".toList
  | .zone error => error.message
  | .unreadable path reason => path ++ ": ".toList ++ reason

inductive ClientError
  | sql (error : SqlError)
  | transport
  | remote (status : Nat) (body : Text)
  | jobFailed (reason : Text)
  | decode (error : DecodeError)
  | config (error : ConfigError)

def ClientError.message : ClientError → Text
  | .sql error => error.message
  | .transport => "transport error".toList
  | .remote status body =>
    "remote error (".toList ++ Text.ofNat status ++ "): ".toList ++ body
  | .jobFailed reason => "batch job failed: ".toList ++ reason
  | .decode error => "decode error: ".toList ++ error.message
  | .config error => "configuration error: ".toList ++ error.message

end LiteralSql
