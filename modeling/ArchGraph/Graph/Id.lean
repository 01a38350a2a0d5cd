import ArchGraph.Digest
import ArchGraph.Graph.Kind
/-!
# Identifiers

An identifier is a tag and sixteen hexadecimal digits: the front of the digest of the tag and the
parts that make an entity what it is, with a separator between them. The parts of nodes are
normalized first, so that spellings that differ only in letter case, surrounding blanks,
kind of slash or trailing slashes name one entity.
-/

namespace ArchGraph.Id

open Text (Chars trim lower dropEndWhile isBlank)

/-- The separator between digested parts. -/
def separator : UInt8 := 0x1F

/-- The bytes that an identifier digests. -/
def message (tag : String) (parts : List String) : List UInt8 :=
  Digest.utf8 tag ++ parts.flatMap fun part => separator :: Digest.utf8 part

/-- The identifier of a tag and parts. -/
def ofParts (tag : String) (parts : List String) : String :=
  tag ++ "_" ++ Digest.hex ((Digest.sha256 (message tag parts)).take 8)

/-- The spelling under which a discriminating part is digested. -/
def normalizeChars (part : Chars) : Chars :=
  dropEndWhile (fun c => c == '/' || isBlank c)
    ((lower (trim part)).map fun c => if c = '\\' then '/' else c)

/-- The spelling under which a discriminating part is digested. -/
def normalize (part : String) : String :=
  String.ofList (normalizeChars part.toList)

/-- The identifier of a node. -/
def node (kind : NodeKind) (parts : List String) : String :=
  ofParts kind.name (parts.map normalize)

/-- The identifier of an edge between a source and the written form of a target. -/
def edge (kind : EdgeKind) (source target discriminator : String) : String :=
  ofParts "edge" [kind.name, source, target, normalize discriminator]

/-- The identifier of a citation. -/
def evidence (parts : List String) : String :=
  ofParts "ev" parts

/-! ## Nodes by what discriminates them -/

/-- A repository, by its own identifier. -/
def repo (repository : String) : String := node .repo [repository]

/-- An app, by its root directory. -/
def app (repo root : String) : String := node .app [repo, root]

/-- A screen, by its route. -/
def screen (repo route : String) : String := node .screen [repo, route]

/-- An endpoint, by method and route. -/
def endpoint (repo : String) (method : HttpMethod) (route : String) : String :=
  node .endpoint [repo, method.name, route]

/-- A scheduled job, by the path it calls and its schedule. -/
def worker (repo path schedule : String) : String := node .worker [repo, path, schedule]

/-- A table. Tables belong to the whole project, since a handler of one repository may use a
table that another one creates. -/
def table (schema name : String) : String := node .table [schema, name]

/-- A database function. -/
def function (schema name : String) : String := node .function [schema, name]

/-- The authentication subsystem. -/
def auth : String := node .auth ["auth"]

/-- The storage subsystem. -/
def storage : String := node .storage ["storage"]

/-- An external service, by its short name or host. -/
def externalService (service : String) : String := node .externalService [service]

/-- A deployment, by its platform. -/
def deployment (repo platform : String) : String := node .deployment [repo, platform]

/-- A package, by ecosystem and name. -/
def package (ecosystem name : String) : String := node .package [ecosystem, name]

end ArchGraph.Id
