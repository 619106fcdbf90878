import FlightSoftware.Ccsds.BurstErrors
import FlightSoftware.Radio.RoundTrip
import FlightSoftware.Radio.Admission
import FlightSoftware.Radio.ResendHistory
import FlightSoftware.Radio.Driver
import FlightSoftware.Adcs.I2cReceive
import FlightSoftware.Bus.CspInterface
import FlightSoftware.Compute.StoredOutput
import FlightSoftware.Adcs.ModeSafety
import FlightSoftware.Adcs.FaultObservation
import FlightSoftware.Adcs.SlewEvidence
import FlightSoftware.Adcs.SunEvidence
import FlightSoftware.Adcs.ActuatorInhibit
import FlightSoftware.Telemetry.TornAppend
import FlightSoftware.Telemetry.DownlinkIntegrity
import FlightSoftware.Telemetry.Codec
import FlightSoftware.Telemetry.LogWalk
import FlightSoftware.Telemetry.RecordCall
import FlightSoftware.Supervisor.Shutdown
import FlightSoftware.Mission.PhotoDownlink
import FlightSoftware.Mission.CycleOrder
import FlightSoftware.Fdir.Outages
import FlightSoftware.Fdir.HealthMonitor
import FlightSoftware.Compute.Results
import FlightSoftware.Compute.FileRead
import FlightSoftware.Compute.InputBuffer
import FlightSoftware.Compute.AckedOutput
import FlightSoftware.Obc.LengthFields
import FlightSoftware.Adcs.Clock
import FlightSoftware.Adcs.DetumbleEvidence
import FlightSoftware.Adcs.Magnetorquer
import FlightSoftware.Bus.SimTable
import FlightSoftware.Bus.SimSend
import FlightSoftware.Bus.RealReceive
import FlightSoftware.Compute.Requesters
import FlightSoftware.Mission.Deadlines
import FlightSoftware.Adcs.HealthCounters
import FlightSoftware.Thermals.HeaterTask
import FlightSoftware.Adcs.TelemetryEncoding
import FlightSoftware.Obc.IpcTransport
import FlightSoftware.Adcs.CommandHandler
import FlightSoftware.Thermals.ClosedLoop
import FlightSoftware.Adcs.SettledEvidence
import FlightSoftware.Adcs.EstimationTask
import FlightSoftware.Obc.CommandPath
import FlightSoftware.Telemetry.BoardToGround
