import CodeAtlas.Json.Value

/-! # Problems of requests

What is wrong with the body of a request, and where. -/

namespace CodeAtlas.Service

inductive Complaint
  | missing
  | unreadable (reason : String)
  | noObject
  | noString
  | noBool
  | unclearBool
  | noInteger
  | unclearInteger
  | fraction
  | infinite
  | largeInteger
  | below (least : Int)
  | noneOf (first second : String)
  deriving Repr, DecidableEq

namespace Complaint

def name : Complaint → String
  | missing => "missing"
  | unreadable _ => "json_invalid"
  | noObject => "model_attributes_type"
  | noString => "string_type"
  | noBool => "bool_type"
  | unclearBool => "bool_parsing"
  | noInteger => "int_type"
  | unclearInteger => "int_parsing"
  | fraction => "int_from_float"
  | infinite => "finite_number"
  | largeInteger => "int_parsing_size"
  | below _ => "greater_than_equal"
  | noneOf .. => "literal_error"

def either (first second : String) : String := s!"'{first}' or '{second}'"

def message : Complaint → String
  | missing => "Field required"
  | unreadable _ => "JSON decode error"
  | noObject => "Input should be a valid dictionary or object to extract fields from"
  | noString => "Input should be a valid string"
  | noBool => "Input should be a valid boolean"
  | unclearBool => "Input should be a valid boolean, unable to interpret input"
  | noInteger => "Input should be a valid integer"
  | unclearInteger => "Input should be a valid integer, unable to parse string as an integer"
  | fraction => "Input should be a valid integer, got a number with a fractional part"
  | infinite => "Input should be a finite number"
  | largeInteger => "Unable to parse input string as an integer, exceeded maximum size"
  | below least => s!"Input should be greater than or equal to {least}"
  | noneOf first second => "Input should be " ++ either first second

/-- What a program needs to explain the complaint in its own words. -/
def context? : Complaint → Option Json
  | unreadable reason => some (.object [("error", .string reason)])
  | below least => some (.object [("ge", .int least)])
  | noneOf first second => some (.object [("expected", .string (either first second))])
  | _ => none

end Complaint

/-- A complaint about a value at a place of the request. -/
structure Problem where
  complaint : Complaint
  place : List Json
  input : Json
  deriving Repr

def Problem.json (p : Problem) : Json := .compact [
  ("type", some (.string p.complaint.name)), ("loc", some (.array p.place)),
  ("msg", some (.string p.complaint.message)), ("input", some p.input),
  ("ctx", p.complaint.context?)]

end CodeAtlas.Service
