import SqlSession.Model.Writes

/-!
# `SqlSession.Sample.Models`: five models

Models to try the library on: one with a signed index, two that share a
table, one with two index fields, one indexed by bytes, and one whose
index is any value.
-/

set_option autoImplicit false

namespace SqlSession.Sample

/-- A user, known by a number. -/
structure User where
  id : Int64
  name : String
  visits : Int64
  deriving DecidableEq, Repr

/-- Other columns of the same table, one of which may be null. -/
structure Account where
  id : Int64
  email : Option String
  deriving DecidableEq, Repr

/-- A row that takes two columns to know it by. -/
structure Member where
  org : UInt64
  login : String
  role : Option String
  deriving DecidableEq, Repr

/-- A row that is known by bytes. -/
structure Blob where
  hash : List UInt8
  size : Int32
  live : Bool
  uid : Option Uuid
  deriving DecidableEq, Repr

/-- A row that is known by a value of any kind. -/
structure Tag where
  key : Value
  label : Option String
  deriving Repr

/-- The data of a record of any of the models. -/
inductive Payload where
  | user (u : User)
  | account (a : Account)
  | member (m : Member)
  | blob (b : Blob)
  | tag (t : Tag)
  deriving Repr

/-- The user as a text to look at. -/
def User.text (u : User) : String :=
  "User \x7b id: " ++ toString u.id.toInt ++ ", name: " ++ Text.quoted u.name ++
    ", visits: " ++ toString u.visits.toInt ++ " \x7d"

def user : Model Payload User where
  table := "users"
  indexFields := ["id"]
  columns := ["id", "name", "visits"]
  fromRow row := do
    let id ← row.get Int64 "id"
    let name ← row.get String "name"
    let visits ← row.tryGet Int64 "visits"
    return ⟨id, name, visits.getD 0⟩
  indexValues u := [.int u.id]
  mergeRow row := do
    row.assign "name" fun name u => { u with name }
    row.assign "visits" fun visits u => { u with visits }
  wrap := .user
  unwrap?
    | .user u => some u
    | _ => none
  unwrap?_wrap _ := rfl

def account : Model Payload Account where
  table := "users"
  indexFields := ["id"]
  fromRow row := do
    let id ← row.get Int64 "id"
    let email ← row.get (Option String) "email"
    return ⟨id, email⟩
  indexValues a := [.int a.id]
  mergeRow row := do
    row.assign "id" fun id a => { a with id }
    row.assign "email" fun email a => { a with email }
  wrap := .account
  unwrap?
    | .account a => some a
    | _ => none
  unwrap?_wrap _ := rfl

def member : Model Payload Member where
  table := "org.members AS m"
  indexFields := ["org", "login"]
  columns := ["org", "login", "role"]
  fromRow row := do
    let org ← row.get UInt64 "org"
    let login ← row.get String "login"
    let role ← row.get (Option String) "role"
    return ⟨org, login, role⟩
  indexValues m := [.uint m.org, .text m.login]
  mergeRow row := do
    row.assign "org" fun org m => { m with org }
    row.assign "login" fun login m => { m with login }
    row.assign "role" fun role m => { m with role }
  wrap := .member
  unwrap?
    | .member m => some m
    | _ => none
  unwrap?_wrap _ := rfl

def blob : Model Payload Blob where
  table := "files f"
  indexFields := ["hash"]
  columns := ["f.hash", "size", "f.*"]
  fromRow row := do
    let hash ← row.get (List UInt8) "hash"
    let size ← row.get Int32 "size"
    let live ← row.get Bool "live"
    let uid ← row.tryGet (Option Uuid) "uid"
    return ⟨hash, size, live, uid.join⟩
  indexValues b := [.bytes b.hash]
  mergeRow row := do
    row.assign "size" fun size b => { b with size }
    row.assign "live" fun live b => { b with live }
    row.assign "uid" fun uid b => { b with uid }
  wrap := .blob
  unwrap?
    | .blob b => some b
    | _ => none
  unwrap?_wrap _ := rfl

def tag : Model Payload Tag where
  table := "tags"
  indexFields := ["key"]
  columns := ["key", "label"]
  fromRow row := do
    let key ← row.get Value "key"
    let label ← row.get (Option String) "label"
    return ⟨key, label⟩
  indexValues t := [t.key]
  mergeRow row := do
    row.assign "key" fun key t => { t with key }
    row.assign "label" fun label t => { t with label }
  wrap := .tag
  unwrap?
    | .tag t => some t
    | _ => none
  unwrap?_wrap _ := rfl

end SqlSession.Sample
