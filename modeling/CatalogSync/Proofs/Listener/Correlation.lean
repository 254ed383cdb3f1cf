import CatalogSync.Listener.Correlation
import CatalogSync.Proofs.Json.Fields
import CatalogSync.Proofs.Time.Timestamp

namespace CatalogSync.Correlation

open Json

theorem ofSource?_toJson {row : Correlation} (h : row.recordedAt.IsValid) :
    ofSource? (source row.toJson) = some row := by
  have htime := Time.Timestamp.ofText?_text h
  rw [ofSource?, toJson, fields?_source_obj]
  simp [Source.field?, text?_source_str, htime]

theorem decode?_encode {row : Correlation} (h : row.recordedAt.IsValid) :
    decode? row.encode = some row := by
  rw [decode?, encode, parse?_compact, Option.bind_some, ofSource?_toJson h]

end CatalogSync.Correlation
