import GlPrograms.Scripted.Device

namespace GlPrograms

/-- What changes in a script. What is not given stays. -/
structure ScriptChange where
  nextName : Option UInt32 := none
  rejectStages : Option (List Stage) := none
  refuseShaders : Option (List Stage) := none
  refusePrograms : Option Bool := none
  rejectLinks : Option Bool := none
  rejectPieces : Option (List String) := none
  vertexLog : Option String := none
  fragmentLog : Option String := none
  linkLog : Option String := none
  reason : Option String := none
  showSources : Option Bool := none
  /-- Locations are added one by one, so the other uniforms keep theirs. -/
  locations : List (String × Location) := []

def ScriptChange.apply (c : ScriptChange) (s : Script) : Script where
  nextName := c.nextName.getD s.nextName
  rejectStages := c.rejectStages.getD s.rejectStages
  refuseShaders := c.refuseShaders.getD s.refuseShaders
  refusePrograms := c.refusePrograms.getD s.refusePrograms
  rejectLinks := c.rejectLinks.getD s.rejectLinks
  rejectPieces := c.rejectPieces.getD s.rejectPieces
  vertexLog := c.vertexLog.getD s.vertexLog
  fragmentLog := c.fragmentLog.getD s.fragmentLog
  linkLog := c.linkLog.getD s.linkLog
  reason := c.reason.getD s.reason
  showSources := c.showSources.getD s.showSources
  locations := c.locations ++ s.locations

def Device.rescript (d : Device) (c : ScriptChange) : Device :=
  { d with script := c.apply d.script }

end GlPrograms
