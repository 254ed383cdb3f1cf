import CatalogSync.Ingest.Basic
import CatalogSync.MediaType

namespace CatalogSync

namespace Attribute

def title : String := "title"
def resourceSize : String := "resource-size"
def resourceUri : String := "resource-uri"
def checksum : String := "checksum"
def checksumAlgorithm : String := "checksum-algorithm"
def mediaType : String := "media-type"

end Attribute

/-- The name that a resource goes by: that of its content, or else the last segment of its
location. -/
def contentName (resource : Resource) (content : Content) : String :=
  if content.name.isEmpty then resource.name else content.name

/-- The transformer that looks at the name, the bytes and the declared media type of a resource. An
undeclared media type is guessed from the name. -/
def Transformer.metadata : Transformer := fun resource content existing =>
  let name := contentName resource content
  let record := Record.setIfAbsent ⟨existing, Table.empty⟩ Attribute.title name
  let record := record.set Attribute.checksum (.str (Sha256.hexDigest content.bytes))
  let record := record.set Attribute.checksumAlgorithm (.str "SHA-256")
  .ok (record.set Attribute.mediaType (.str (content.mediaType.getD (MediaType.guess name))))

end CatalogSync
